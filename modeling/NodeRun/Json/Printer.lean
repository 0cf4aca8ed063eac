import NodeRun.Json.Basic
import NodeRun.Real64.Notation
import NodeRun.Text.Quoted

namespace NodeRun.Json

def escapedChar (c : Char) : List Char :=
  if c = '"' then ['\\', '"']
  else if c = '\\' then ['\\', '\\']
  else if 0x20 ≤ c.toNat then [c]
  else if c = '\n' then ['\\', 'n']
  else if c = '\r' then ['\\', 'r']
  else if c = '\t' then ['\\', 't']
  else if c.toNat = 0x08 then ['\\', 'b']
  else if c.toNat = 0x0c then ['\\', 'f']
  else ['\\', 'u', '0', '0', Text.hexDigit (c.toNat / 16), Text.hexDigit (c.toNat % 16)]

def stringText (s : String) : List Char :=
  '"' :: s.toList.flatMap escapedChar ++ ['"']

mutual

def text : Json → List Char
  | .null => "null".toList
  | .bool true => "true".toList
  | .bool false => "false".toList
  | .int n => intText n
  | .real x => (x.render RealStyle.json).toList
  | .str s => stringText s
  | .arr items => '[' :: itemsText items ++ [']']
  | .obj members => '\x7b' :: membersText members ++ ['\x7d']

def itemsText : List Json → List Char
  | [] => []
  | [j] => text j
  | j :: js => text j ++ ',' :: itemsText js

def membersText : List (String × Json) → List Char
  | [] => []
  | [(k, j)] => stringText k ++ ':' :: text j
  | (k, j) :: js => stringText k ++ ':' :: text j ++ ',' :: membersText js

end

def compact (j : Json) : String := String.ofList (text j)

mutual

/-- A value as it is shown inside a record: the kind of each value, and its content. -/
def shown : Json → List Char
  | .null => "Null".toList
  | .bool b => "Bool(".toList ++ text (.bool b) ++ [')']
  | .int n => "Number(".toList ++ intText n ++ [')']
  | .real x => "Number(".toList ++ (x.render RealStyle.json).toList ++ [')']
  | .str s => "String(".toList ++ (Text.quoted s).toList ++ [')']
  | .arr items => "Array [".toList ++ shownItems items ++ [']']
  | .obj members => "Object ".toList ++ '\x7b' :: shownMembers members ++ ['\x7d']

def shownItems : List Json → List Char
  | [] => []
  | [j] => shown j
  | j :: js => shown j ++ ", ".toList ++ shownItems js

def shownMembers : List (String × Json) → List Char
  | [] => []
  | [(k, j)] => (Text.quoted k).toList ++ ": ".toList ++ shown j
  | (k, j) :: js =>
    (Text.quoted k).toList ++ ": ".toList ++ shown j ++ ", ".toList ++ shownMembers js

end

def shownTable (t : Table Json) : String :=
  String.ofList ('\x7b' :: shownMembers t.entries ++ ['\x7d'])

end NodeRun.Json
