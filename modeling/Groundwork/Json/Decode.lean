import Groundwork.Json.Value
/-!
Records read from JSON documents. A record is an object whose unknown members are passed over, or an
array of the fields in their order.
-/
namespace Groundwork.Json

variable {α β : Type}

namespace Raw

def text : Raw → Except Error String
  | .string body => bodyText body
  | _ => .error (.wrongKind "text")

def boolean : Raw → Except Error Bool
  | .bool b => .ok b
  | _ => .error (.wrongKind "a boolean")

/-- A whole number below `2 ^ bits`. -/
def unsigned (bits : Nat) : Raw → Except Error Nat
  | .number n => do
    match ← n.number with
    | .whole i =>
      if 0 ≤ i ∧ i.toNat < Nat.pow 2 bits then .ok i.toNat else .error (.badNumber (toString i))
    | .real .. => .error (.wrongKind "a whole number")
  | _ => .error (.wrongKind "a whole number")

/-- A 64-bit number, or a text of its digits with blanks around them. -/
def counter : Raw → Except Error Nat
  | .string body => do
    let s ← bodyText body
    match Decimal.unsigned? 64 (Text.trimChars s.toList) with
    | some n => .ok n
    | none => .error (.badNumber s)
  | r => r.unsigned 64

def nullable (f : Raw → Except Error α) : Raw → Except Error (Option α)
  | .null => .ok none
  | r => (f r).map some

def items (f : Raw → Except Error α) : Raw → Except Error (List α)
  | .array rs => rs.mapM f
  | _ => .error (.wrongKind "an array")

/-- The members of an object, in the order in which they are written. -/
def members : Raw → Except Error (List (String × Raw))
  | .object ms => ms.mapM fun (key, r) => do .ok (← bodyText key, r)
  | _ => .error (.wrongKind "an object")

/-- A dictionary; the last of several equal keys counts. -/
def dictionary (f : Raw → Except Error α) (r : Raw) : Except Error (Dict α) := do
  let fields ← (← r.members).mapM fun (k, v) => do .ok (k, ← f v)
  .ok (Dict.ofList fields)

end Raw

/-- The known fields of a record, each at most once. -/
structure Fields where
  found : List (String × Raw)
  /-- Whether the record was written as an array. -/
  positional : Bool

namespace Fields

def repeated? : List String → Option String
  | [] => none
  | name :: rest => if name ∈ rest then some name else repeated? rest

/-- Picks the members with known names, none of which may stand there twice. -/
def ofMembers (names : List String) (ms : List (String × Raw)) : Except Error Fields :=
  let known := ms.filter (·.1 ∈ names)
  match repeated? (known.map (·.1)) with
  | some name => .error (.repeatedField name)
  | none => .ok ⟨known, false⟩

def ofRaw (names : List String) : Raw → Except Error Fields
  | .array rs =>
    if rs.length ≤ names.length then .ok ⟨names.zip rs, true⟩ else .error .extraItem
  | r => do ofMembers names (← r.members)

def get? (fs : Fields) (name : String) : Option Raw :=
  (fs.found.find? (·.1 = name)).map (·.2)

def required (fs : Fields) (name : String) (f : Raw → Except Error α) : Except Error α :=
  match fs.get? name with
  | some r => f r
  | none => .error (.missingField name)

def defaulting (fs : Fields) (name : String) (default : α) (f : Raw → Except Error α) :
    Except Error α :=
  match fs.get? name with
  | some r => f r
  | none => .ok default

/-- A field that may be null, and that may be left out of an object. -/
def optional (fs : Fields) (name : String) (f : Raw → Except Error α) :
    Except Error (Option α) :=
  match fs.get? name with
  | some r => r.nullable f
  | none => if fs.positional then .error (.missingField name) else .ok none

end Fields

end Groundwork.Json
