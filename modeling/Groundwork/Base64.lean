import Groundwork.Text
/-!
Base64 with the standard alphabet. Padding is required and the bits that a last group leaves unused
are zero, so every byte sequence has exactly one written form.
-/
namespace Groundwork.Base64

def alphabet : List Char :=
  "ABCDEFGHIJKLMNOPQRSTUVWXYZabcdefghijklmnopqrstuvwxyz0123456789+/".toList

def symbol (n : Nat) : Char := alphabet.getD n 'A'

def index? (c : Char) : Option Nat := alphabet.findIdx? (· == c)

/-- Three bytes are four symbols of six bits each. -/
def encodeChars : List UInt8 → List Char
  | [] => []
  | [a] =>
    let n := a.toNat * 16
    [symbol (n / 64), symbol (n % 64), '=', '=']
  | [a, b] =>
    let n := (a.toNat * 256 + b.toNat) * 4
    [symbol (n / 4096), symbol (n / 64 % 64), symbol (n % 64), '=']
  | a :: b :: c :: rest =>
    let n := (a.toNat * 256 + b.toNat) * 256 + c.toNat
    symbol (n / 262144) :: symbol (n / 4096 % 64) :: symbol (n / 64 % 64) :: symbol (n % 64) ::
      encodeChars rest

def decodeChars? : List Char → Option (List UInt8)
  | [] => some []
  | [a, b, '=', '='] => do
    let n := (← index? a) * 64 + (← index? b)
    if n % 16 = 0 then some [(n / 16).toUInt8] else none
  | [a, b, c, '='] => do
    let n := ((← index? a) * 64 + (← index? b)) * 64 + (← index? c)
    if n % 4 = 0 then some [(n / 1024).toUInt8, (n / 4 % 256).toUInt8] else none
  | a :: b :: c :: d :: rest => do
    let n := (((← index? a) * 64 + (← index? b)) * 64 + (← index? c)) * 64 + (← index? d)
    let tail ← decodeChars? rest
    some ((n / 65536).toUInt8 :: (n / 256 % 256).toUInt8 :: (n % 256).toUInt8 :: tail)
  | _ => none

def encode (bytes : ByteArray) : String := String.ofList (encodeChars bytes.toList)

/-- Blanks around the text do not count. -/
def decode? (s : String) : Option ByteArray :=
  (decodeChars? (Text.trim s).toList).map List.toByteArray

end Groundwork.Base64
