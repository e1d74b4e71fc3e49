import Groundwork.Json.Number
import Groundwork.Dict
/-!
Values of JSON documents and their compact written form.

Main definitions: `Value.ofRaw` takes a document at its word, up to the depth limit; `Value.encode`
writes a value, object keys in ascending order.
-/
namespace Groundwork.Json

def hexValue (b : UInt8) : Nat :=
  if b ≤ 0x39 then b.toNat - 0x30 else if b ≤ 0x46 then b.toNat - 0x37 else b.toNat - 0x57

def hexUnit (h₁ h₂ h₃ h₄ : UInt8) : Nat :=
  ((hexValue h₁ * 16 + hexValue h₂) * 16 + hexValue h₃) * 16 + hexValue h₄

/-- The byte that a short escape stands for. -/
def shortEscape (c : UInt8) : UInt8 :=
  if c = 0x62 then 0x08 else if c = 0x66 then 0x0C else if c = 0x6E then 0x0A
  else if c = 0x72 then 0x0D else if c = 0x74 then 0x09 else c

/-- The bytes of a string without its escapes. Code units of a surrogate pair stand together. -/
def unescape : List UInt8 → Option (List UInt8)
  | [] => some []
  | b :: rest =>
    if b = 0x5C then
      match rest with
      | [] => none
      | c :: more =>
        if c = 0x75 then
          match more with
          | h₁ :: h₂ :: h₃ :: h₄ :: tail =>
            let u := hexUnit h₁ h₂ h₃ h₄
            if 0xDC00 ≤ u ∧ u ≤ 0xDFFF then none
            else if 0xD800 ≤ u ∧ u ≤ 0xDBFF then
              match tail with
              | 0x5C :: 0x75 :: k₁ :: k₂ :: k₃ :: k₄ :: tail =>
                let v := hexUnit k₁ k₂ k₃ k₄
                if 0xDC00 ≤ v ∧ v ≤ 0xDFFF then
                  let c := Char.ofNat (0x10000 + (u - 0xD800) * 0x400 + (v - 0xDC00))
                  (unescape tail).map (String.utf8EncodeChar c ++ ·)
                else none
              | _ => none
            else (unescape tail).map (String.utf8EncodeChar (Char.ofNat u) ++ ·)
          | _ => none
        else (unescape more).map (shortEscape c :: ·)
    else (unescape rest).map (b :: ·)

def bodyText (body : List UInt8) : Except Error String :=
  match unescape body with
  | none => .error .badText
  | some bytes =>
    match String.fromUTF8? bytes.toByteArray with
    | some s => .ok s
    | none => .error .badText

namespace Value

mutual

/-- The value of a document, of at most the given depth. The last of several equal keys counts. -/
def ofRaw : Nat → Raw → Except Error Value
  | _, .null => .ok .null
  | _, .bool b => .ok (.bool b)
  | _, .number n => n.number.map .number
  | _, .string body => (bodyText body).map .string
  | 0, .array _ => .error .tooDeep
  | depth + 1, .array items => (ofItems depth items).map .array
  | 0, .object _ => .error .tooDeep
  | depth + 1, .object members =>
    (ofMembers depth members).map fun fields => .object (Dict.ofList fields).entries

def ofItems : Nat → List Raw → Except Error (List Value)
  | _, [] => .ok []
  | depth, r :: rest => do
    let v ← ofRaw depth r
    let vs ← ofItems depth rest
    .ok (v :: vs)

def ofMembers : Nat → List (List UInt8 × Raw) → Except Error (List (String × Value))
  | _, [] => .ok []
  | depth, (key, r) :: rest => do
    let k ← bodyText key
    let v ← ofRaw depth r
    let fields ← ofMembers depth rest
    .ok ((k, v) :: fields)

end

def parse (bs : List UInt8) : Except Error Value := do
  ofRaw depthLimit (← Raw.parse bs)

def hexByte (n : Nat) : UInt8 := if n < 10 then (0x30 + n).toUInt8 else (0x57 + n).toUInt8

/-- Quotes, backslashes and control characters are escaped and nothing else. -/
def escapeByte (b : UInt8) : List UInt8 :=
  if b = 0x22 then [0x5C, 0x22] else if b = 0x5C then [0x5C, 0x5C]
  else if b = 0x08 then [0x5C, 0x62] else if b = 0x0C then [0x5C, 0x66]
  else if b = 0x0A then [0x5C, 0x6E] else if b = 0x0D then [0x5C, 0x72]
  else if b = 0x09 then [0x5C, 0x74]
  else if b < 0x20 then
    [0x5C, 0x75, 0x30, 0x30, hexByte (b.toNat / 16), hexByte (b.toNat % 16)]
  else [b]

def encodeText (s : String) : List UInt8 :=
  0x22 :: s.toUTF8.toList.flatMap escapeByte ++ [0x22]

/-- Pieces with a comma between them. -/
def separated : List (List UInt8) → List UInt8
  | [] => []
  | [piece] => piece
  | piece :: rest => piece ++ 0x2C :: separated rest

mutual

def encode : Value → List UInt8
  | .null => [0x6E, 0x75, 0x6C, 0x6C]
  | .bool true => [0x74, 0x72, 0x75, 0x65]
  | .bool false => [0x66, 0x61, 0x6C, 0x73, 0x65]
  | .number n => n.text.toUTF8.toList
  | .string s => encodeText s
  | .array items => 0x5B :: separated (encodeItems items) ++ [0x5D]
  | .object fields => 0x7B :: separated (encodeFields fields) ++ [0x7D]

def encodeItems : List Value → List (List UInt8)
  | [] => []
  | v :: vs => encode v :: encodeItems vs

def encodeFields : List (String × Value) → List (List UInt8)
  | [] => []
  | (k, v) :: fields => (encodeText k ++ 0x3A :: encode v) :: encodeFields fields

end

end Value

end Groundwork.Json
