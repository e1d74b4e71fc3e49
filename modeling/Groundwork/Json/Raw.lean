import Groundwork.Json.Basic
/-!
The shape of a JSON document before its parts are looked at. Strings keep their escapes and numbers
their digits, so a part that nobody asks for is only required to be well formed, at any depth and of
any size.
-/
namespace Groundwork.Json

/-- A number as it is written. Without a fraction the list is empty. -/
structure Numeral where
  negative : Bool
  whole : List UInt8
  fraction : List UInt8
  /-- Whether the exponent has a minus sign, and its digits. -/
  exponent : Option (Bool × List UInt8)
  deriving DecidableEq, Repr

inductive Raw
  | null
  | bool (b : Bool)
  | number (n : Numeral)
  | string (body : List UInt8)
  | array (items : List Raw)
  | object (members : List (List UInt8 × Raw))
  deriving Repr

namespace Raw

def isSpace (b : UInt8) : Bool := b == 0x20 || b == 0x0A || b == 0x0D || b == 0x09

def isDigit (b : UInt8) : Bool := 0x30 ≤ b && b ≤ 0x39

def isHex (b : UInt8) : Bool := isDigit b || (0x41 ≤ b && b ≤ 0x46) || (0x61 ≤ b && b ≤ 0x66)

def skipSpace (bs : List UInt8) : List UInt8 := bs.dropWhile isSpace

/-- Whether the byte after a backslash makes an escape on its own. -/
def isShortEscape (b : UInt8) : Bool :=
  b == 0x22 || b == 0x5C || b == 0x2F || b == 0x62 || b == 0x66 || b == 0x6E || b == 0x72 ||
    b == 0x74

/-- The rest of a string after its opening quote, and what follows the closing one. -/
def stringBody : List UInt8 → Option (List UInt8 × List UInt8)
  | [] => none
  | b :: rest =>
    if b = 0x22 then some ([], rest)
    else if b = 0x5C then
      match rest with
      | [] => none
      | c :: more =>
        if isShortEscape c then (stringBody more).map fun (s, r) => (b :: c :: s, r)
        else if c = 0x75 then
          match more with
          | h₁ :: h₂ :: h₃ :: h₄ :: tail =>
            if isHex h₁ && isHex h₂ && isHex h₃ && isHex h₄ then
              (stringBody tail).map fun (s, r) => (b :: c :: h₁ :: h₂ :: h₃ :: h₄ :: s, r)
            else none
          | _ => none
        else none
    else if b < 0x20 then none
    else (stringBody rest).map fun (s, r) => (b :: s, r)

def exponent? : List UInt8 → Option (Option (Bool × List UInt8) × List UInt8)
  | [] => some (none, [])
  | b :: rest =>
    if b = 0x65 ∨ b = 0x45 then
      let (negative, digits) := match rest with
        | 0x2B :: r => (false, r)
        | 0x2D :: r => (true, r)
        | r => (false, r)
      if (digits.takeWhile isDigit).isEmpty then none
      else some (some (negative, digits.takeWhile isDigit), digits.dropWhile isDigit)
    else some (none, b :: rest)

def fraction? : List UInt8 → Option (List UInt8 × List UInt8)
  | [] => some ([], [])
  | b :: rest =>
    if b = 0x2E then
      if (rest.takeWhile isDigit).isEmpty then none
      else some (rest.takeWhile isDigit, rest.dropWhile isDigit)
    else some ([], b :: rest)

/-- A number starts with a zero alone or with another digit. -/
def numeral? (bs : List UInt8) : Option (Numeral × List UInt8) := do
  let (negative, bs) := match bs with
    | 0x2D :: r => (true, r)
    | r => (false, r)
  let whole := bs.takeWhile isDigit
  if whole.isEmpty || (whole.head? == some 0x30 && whole.length != 1) then none
  else
    let (fraction, bs) ← fraction? (bs.dropWhile isDigit)
    let (exponent, bs) ← exponent? bs
    some (⟨negative, whole, fraction, exponent⟩, bs)

/-- The words and what they stand for. -/
def word? (bs : List UInt8) : Option (Raw × List UInt8) :=
  let after (w : List UInt8) (r : Raw) : Option (Raw × List UInt8) :=
    if w.isPrefixOf bs then some (r, bs.drop w.length) else none
  ((after [0x6E, 0x75, 0x6C, 0x6C] .null).or (after [0x74, 0x72, 0x75, 0x65] (.bool true))).or
    (after [0x66, 0x61, 0x6C, 0x73, 0x65] (.bool false))

mutual

/-- A value and what follows it. The first argument bounds the depth of the calls. -/
def value? : Nat → List UInt8 → Option (Raw × List UInt8)
  | 0, _ => none
  | fuel + 1, bs =>
    match skipSpace bs with
    | [] => none
    | b :: rest =>
      if b = 0x22 then (stringBody rest).map fun (s, r) => (.string s, r)
      else if b = 0x5B then
        match skipSpace rest with
        | 0x5D :: r => some (.array [], r)
        | r => (items? fuel r).map fun (vs, r) => (.array vs, r)
      else if b = 0x7B then
        match skipSpace rest with
        | 0x7D :: r => some (.object [], r)
        | r => (members? fuel r).map fun (ms, r) => (.object ms, r)
      else if b = 0x2D ∨ isDigit b then (numeral? (b :: rest)).map fun (n, r) => (.number n, r)
      else word? (b :: rest)

/-- The items of an array up to its closing bracket; there is at least one. -/
def items? : Nat → List UInt8 → Option (List Raw × List UInt8)
  | 0, _ => none
  | fuel + 1, bs => do
    let (v, r) ← value? fuel bs
    match skipSpace r with
    | 0x2C :: r => (items? fuel r).map fun (vs, r) => (v :: vs, r)
    | 0x5D :: r => some ([v], r)
    | _ => none

/-- The members of an object up to its closing brace; there is at least one. -/
def members? : Nat → List UInt8 → Option (List (List UInt8 × Raw) × List UInt8)
  | 0, _ => none
  | fuel + 1, bs =>
    match skipSpace bs with
    | 0x22 :: r => do
      let (key, r) ← stringBody r
      match skipSpace r with
      | 0x3A :: r => do
        let (v, r) ← value? fuel r
        match skipSpace r with
        | 0x2C :: r => (members? fuel r).map fun (ms, r) => ((key, v) :: ms, r)
        | 0x7D :: r => some ([(key, v)], r)
        | _ => none
      | _ => none
    | _ => none

end

/-- Reads a whole document; nothing but blanks may follow the value. -/
def parse (bs : List UInt8) : Except Error Raw :=
  match value? (2 * bs.length + 2) bs with
  | some (v, rest) => if (skipSpace rest).isEmpty then .ok v else .error .malformed
  | none => .error .malformed

def ofText (s : String) : Except Error Raw := parse s.toUTF8.toList

end Raw

end Groundwork.Json
