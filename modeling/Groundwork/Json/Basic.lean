import Groundwork.Binary64
/-!
JSON values and the ways in which a document can fail to be one.
-/
namespace Groundwork.Json

/-- Whole numbers are exact as far as 64 bits hold them; all other numbers are floating. -/
inductive Number
  | whole (n : Int)
  | real (negative : Bool) (magnitude : Binary64)
  deriving DecidableEq, Repr

/-- The fields of an object stand in ascending key order, each key once. -/
inductive Value
  | null
  | bool (b : Bool)
  | number (n : Number)
  | string (text : String)
  | array (items : List Value)
  | object (fields : List (String × Value))
  deriving Repr

def Value.isObject : Value → Bool
  | .object _ => true
  | _ => false

inductive Error
  | malformed
  | tooDeep
  | outOfRange
  | badText
  | wrongKind (expected : String)
  | badNumber (text : String)
  | badWord (text : String)
  | missingField (name : String)
  | repeatedField (name : String)
  | extraItem
  deriving DecidableEq, Repr

def Error.message : Error → String
  | .malformed => "not a JSON document"
  | .tooDeep => "recursion limit exceeded"
  | .outOfRange => "number out of range"
  | .badText => "invalid text"
  | .wrongKind expected => s!"invalid type, expected {expected}"
  | .badNumber text => s!"not an integer: '{text}'"
  | .badWord text => s!"unknown word '{text}'"
  | .missingField name => s!"missing field '{name}'"
  | .repeatedField name => s!"duplicate field '{name}'"
  | .extraItem => "more items than fields"

/-- How many arrays and objects may enclose one another where values are kept. -/
def depthLimit : Nat := 127

end Groundwork.Json
