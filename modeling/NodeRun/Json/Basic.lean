import NodeRun.Real64.Basic
import NodeRun.Table

/-!
JSON values. Integers and floating point numbers are kept apart, and the members of an object stand
in the order in which they are given; `Normal` values have them in order of their names, no name
twice, and only finite numbers.
-/

namespace NodeRun

inductive Json where
  | null
  | bool (value : Bool)
  | int (value : Int)
  | real (value : Real64)
  | str (value : String)
  | arr (items : List Json)
  | obj (members : List (String × Json))
  deriving Repr, Inhabited

namespace Json

mutual

def beq : Json → Json → Bool
  | .null, .null => true
  | .bool a, .bool b => a == b
  | .int a, .int b => a == b
  | .real a, .real b => a == b
  | .str a, .str b => a == b
  | .arr a, .arr b => beqItems a b
  | .obj a, .obj b => beqMembers a b
  | _, _ => false

def beqItems : List Json → List Json → Bool
  | [], [] => true
  | a :: as, b :: bs => beq a b && beqItems as bs
  | _, _ => false

def beqMembers : List (String × Json) → List (String × Json) → Bool
  | [], [] => true
  | (j, a) :: as, (k, b) :: bs => j == k && beq a b && beqMembers as bs
  | _, _ => false

end

mutual

theorem eq_of_beq : ∀ {a b : Json}, beq a b = true → a = b
  | .null, b, h => by cases b <;> simp_all [beq]
  | .bool _, b, h => by cases b <;> simp_all [beq]
  | .int _, b, h => by cases b <;> simp_all [beq]
  | .real _, b, h => by cases b <;> simp_all [beq]
  | .str _, b, h => by cases b <;> simp_all [beq]
  | .arr as, b, h => by
    cases b <;> simp only [beq, Bool.false_eq_true] at h
    rw [eq_of_beqItems h]
  | .obj as, b, h => by
    cases b <;> simp only [beq, Bool.false_eq_true] at h
    rw [eq_of_beqMembers h]

theorem eq_of_beqItems : ∀ {as bs : List Json}, beqItems as bs = true → as = bs
  | [], [], _ => rfl
  | [], _ :: _, h => by simp [beqItems] at h
  | _ :: _, [], h => by simp [beqItems] at h
  | a :: as, b :: bs, h => by
    simp only [beqItems, Bool.and_eq_true] at h
    rw [eq_of_beq h.1, eq_of_beqItems h.2]

theorem eq_of_beqMembers :
    ∀ {as bs : List (String × Json)}, beqMembers as bs = true → as = bs
  | [], [], _ => rfl
  | [], _ :: _, h => by simp [beqMembers] at h
  | _ :: _, [], h => by simp [beqMembers] at h
  | (j, a) :: as, (k, b) :: bs, h => by
    simp only [beqMembers, Bool.and_eq_true, beq_iff_eq] at h
    rw [h.1.1, eq_of_beq h.1.2, eq_of_beqMembers h.2]

end

mutual

theorem beq_refl : ∀ a : Json, beq a a = true
  | .null => rfl
  | .bool _ => by simp [beq]
  | .int _ => by simp [beq]
  | .real _ => by simp [beq]
  | .str _ => by simp [beq]
  | .arr as => by simp [beq, beqItems_refl as]
  | .obj as => by simp [beq, beqMembers_refl as]

theorem beqItems_refl : ∀ as : List Json, beqItems as as = true
  | [] => rfl
  | a :: as => by simp [beqItems, beq_refl a, beqItems_refl as]

theorem beqMembers_refl : ∀ as : List (String × Json), beqMembers as as = true
  | [] => rfl
  | (_, a) :: as => by simp [beqMembers, beq_refl a, beqMembers_refl as]

end

instance : DecidableEq Json := fun a b =>
  if h : beq a b = true then .isTrue (eq_of_beq h)
  else .isFalse (fun e => h (e ▸ beq_refl a))

mutual

def Normal : Json → Prop
  | .real x => x.isFinite = true
  | .arr items => NormalItems items
  | .obj members => Entries.Sorted members ∧ NormalMembers members
  | _ => True

def NormalItems : List Json → Prop
  | [] => True
  | j :: js => Normal j ∧ NormalItems js

def NormalMembers : List (String × Json) → Prop
  | [] => True
  | (_, j) :: js => Normal j ∧ NormalMembers js

end

def ofReal (x : Real64) : Json := if x.isFinite then .real x else .null

def ofTable (t : Table Json) : Json := .obj t.entries

mutual

/-- The same value with the members of every object in order of their names, the last of a
repeated name kept. -/
def normalize : Json → Json
  | .arr items => .arr (normalizeItems items)
  | .obj members => .obj (Entries.collect (normalizeMembers members))
  | j => j

def normalizeItems : List Json → List Json
  | [] => []
  | j :: js => normalize j :: normalizeItems js

def normalizeMembers : List (String × Json) → List (String × Json)
  | [] => []
  | (k, j) :: js => (k, normalize j) :: normalizeMembers js

end

mutual

theorem normalize_of_normal : ∀ {j : Json}, Normal j → normalize j = j
  | .null, _ => rfl
  | .bool _, _ => rfl
  | .int _, _ => rfl
  | .real _, _ => rfl
  | .str _, _ => rfl
  | .arr items, h => by
    rw [normalize, normalizeItems_of_normal (by simpa [Normal] using h)]
  | .obj members, h => by
    simp only [Normal] at h
    rw [normalize, normalizeMembers_of_normal h.2, Entries.collect_of_sorted h.1]

theorem normalizeItems_of_normal : ∀ {js : List Json}, NormalItems js → normalizeItems js = js
  | [], _ => rfl
  | j :: js, h => by
    simp only [NormalItems] at h
    rw [normalizeItems, normalize_of_normal h.1, normalizeItems_of_normal h.2]

theorem normalizeMembers_of_normal :
    ∀ {js : List (String × Json)}, NormalMembers js → normalizeMembers js = js
  | [], _ => rfl
  | (k, j) :: js, h => by
    simp only [NormalMembers] at h
    rw [normalizeMembers, normalize_of_normal h.1, normalizeMembers_of_normal h.2]

end

def get? : Json → String → Option Json
  | .obj members, k => Entries.get? members k
  | _, _ => none

end Json

end NodeRun
