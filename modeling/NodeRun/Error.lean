import NodeRun.Field
import NodeRun.Json.Place

namespace NodeRun

inductive ParseReason where
  | emptyInteger
  | invalidDigit
  | tooLarge
  | tooSmall
  | emptyFloat
  | invalidFloat
  | notFinite
  | notBoolean
  | reported (message : String)
  deriving DecidableEq, Repr

def ParseReason.message : ParseReason → String
  | emptyInteger => "cannot parse integer from empty string"
  | invalidDigit => "invalid digit found in string"
  | tooLarge => "number too large to fit in target type"
  | tooSmall => "number too small to fit in target type"
  | emptyFloat => "cannot parse float from empty string"
  | invalidFloat => "invalid float literal"
  | notFinite => "expected a finite number"
  | notBoolean => "expected true or false"
  | reported m => m

inductive ConfigurationFault where
  | duplicateNode (node workflow : String)
  | duplicateParameter (identifier : String)
  | duplicateSlot (signature : String) (direction : Direction) (identifier : String)
  | sharedSlot (signature identifier : String)
  | retrieverClassMissing
  | retrieverClassUnknown (cls : String) (known : List String)
  | evaluatorClassMissing
  | evaluatorClassUnknown (cls : String)
  | evaluatorIdMissing
  | evaluationUnavailable
  | modelMissing
  | uninitialized (field : String)
  | reported (message : String)
  deriving DecidableEq, Repr

def hostedClass : String := "LangWatchEvaluator"

def inQuotes (s : String) : String := "'" ++ s ++ "'"

def ConfigurationFault.message : ConfigurationFault → String
  | duplicateNode node workflow =>
    "duplicate node id " ++ inQuotes node ++ " in workflow " ++ workflow
  | duplicateParameter i => "duplicate parameter field " ++ inQuotes i
  | duplicateSlot s d i =>
    "signature " ++ s ++ ": duplicate " ++ d.name ++ " field " ++ inQuotes i
  | sharedSlot s i =>
    "signature " ++ s ++ ": field " ++ inQuotes i ++ " is both an input and an output"
  | retrieverClassMissing => "retriever class not specified"
  | retrieverClassUnknown cls known =>
    "unknown retriever class " ++ inQuotes cls ++ ", expected one of: " ++
      String.intercalate ", " known
  | evaluatorClassMissing => "evaluator class not specified"
  | evaluatorClassUnknown cls => "unknown evaluator class " ++ inQuotes cls
  | evaluatorIdMissing => hostedClass ++ " requires an evaluator id"
  | evaluationUnavailable => "hosted evaluation service is not configured"
  | modelMissing => "language model not specified"
  | uninitialized f => ticked f ++ " must be initialized"
  | reported m => m

inductive InvocationFault where
  | missingOutputs (model : String) (names : List String)
  | queryExpected
  | queryEmpty
  | evaluatorFailed (evaluator : String) (details : Option String)
  | executionPanicked (task : Nat) (message : String)
  | invocationPanicked (task : Nat) (message : String)
  | reported (message : String)
  deriving DecidableEq, Repr

def panicText (task : Nat) (message : String) : String :=
  "task " ++ String.ofList (digitText task) ++ " panicked with message " ++ Text.quoted message

def InvocationFault.message : InvocationFault → String
  | missingOutputs model names =>
    model ++ " response is missing outputs: " ++ String.intercalate ", " names
  | queryExpected => "retriever expects a 'query' input"
  | queryEmpty => "retriever query is empty"
  | evaluatorFailed e details =>
    "evaluator " ++ e ++ " failed: " ++ details.getD "unknown error"
  | executionPanicked task m => "execution task failed: " ++ panicText task m
  | invocationPanicked task m => "invocation task failed: " ++ panicText task m
  | reported m => m

inductive Error where
  | configuration (fault : ConfigurationFault)
  | parse (field : String) (type : FieldType) (value : String) (reason : ParseReason)
  | unsupportedNodeType (type : String)
  | nodeNotFound (id : String)
  | invocation (fault : InvocationFault)
  | cancelled
  | tracing (message : String)
  | serialization (error : DecodeError)
  | unreadable (fault : Fault) (place : Json.Place)
  deriving DecidableEq, Repr

namespace Error

def message : Error → String
  | configuration f => "configuration error: " ++ f.message
  | parse field type value reason =>
    "cannot parse field " ++ inQuotes field ++ " value " ++ Text.quoted value ++ " as " ++
      type.name ++ ": " ++ reason.message
  | unsupportedNodeType t => "unsupported node type: " ++ t
  | nodeNotFound id => "node " ++ id ++ " not found in workflow"
  | invocation f => "invocation failed: " ++ f.message
  | cancelled => "execution cancelled"
  | tracing m => "tracing error: " ++ m
  | serialization e => "serialization error: " ++ e.message
  | unreadable f p => "serialization error: " ++ f.message ++ " at " ++ p.text

def kind : Error → String
  | configuration _ => "Configuration"
  | parse _ _ _ _ => "Parse"
  | unsupportedNodeType _ => "UnsupportedNodeType"
  | nodeNotFound _ => "NodeNotFound"
  | invocation _ => "Invocation"
  | cancelled => "Cancelled"
  | tracing _ => "Tracing"
  | serialization _ => "Serialization"
  | unreadable _ _ => "Serialization"

def ofText? (s : String) : Option Error :=
  match Json.parse s with
  | .ok _ => none
  | .error f => some (.unreadable f (Json.Place.ofFault s f))

/-- An error that a collaborator reports, by the name of its kind. A serialization error is what is
wrong with the message as JSON. -/
def reported (kind message : String) : Error :=
  match kind with
  | "Configuration" => configuration (.reported message)
  | "UnsupportedNodeType" => unsupportedNodeType message
  | "NodeNotFound" => nodeNotFound message
  | "Cancelled" => cancelled
  | "Tracing" => tracing message
  | "Serialization" => (ofText? message).getD (invocation (.reported message))
  | _ => invocation (.reported message)

def isCompilation : Error → Bool
  | configuration _ => true
  | parse _ _ _ _ => true
  | unsupportedNodeType _ => true
  | _ => false

def isCancelled (e : Error) : Bool := e = cancelled

end Error

end NodeRun
