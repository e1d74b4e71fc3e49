/-!
Bytes as text. Well-formed bytes are read by the library's own decoder; here is the reading that
never fails, where each ill-formed stretch becomes one replacement character.
-/
namespace Groundwork.Text

/-- The stretch of bytes that starts a character, and how much of it is well formed. -/
structure Lead where
  /-- Bytes still expected after the first one. -/
  more : Nat
  /-- The least and the greatest second byte. -/
  low : UInt8
  high : UInt8

def isContinuation (b : UInt8) : Bool := 0x80 ≤ b && b ≤ 0xBF

/-- The shape of a character by its first byte; none for a byte that starts no character. -/
def lead? (b : UInt8) : Option Lead :=
  if b < 0x80 then some ⟨0, 0x80, 0xBF⟩
  else if 0xC2 ≤ b && b ≤ 0xDF then some ⟨1, 0x80, 0xBF⟩
  else if b == 0xE0 then some ⟨2, 0xA0, 0xBF⟩
  else if b == 0xED then some ⟨2, 0x80, 0x9F⟩
  else if 0xE1 ≤ b && b ≤ 0xEF then some ⟨2, 0x80, 0xBF⟩
  else if b == 0xF0 then some ⟨3, 0x90, 0xBF⟩
  else if 0xF1 ≤ b && b ≤ 0xF3 then some ⟨3, 0x80, 0xBF⟩
  else if b == 0xF4 then some ⟨3, 0x80, 0x8F⟩
  else none

/-- How many of the bytes after the first one continue the character, at most `more`. -/
def continuing (l : Lead) (rest : List UInt8) : Nat :=
  match l.more, rest with
  | 0, _ => 0
  | _, [] => 0
  | n + 1, b :: bs =>
    if l.low ≤ b && b ≤ l.high then 1 + ((bs.take n).takeWhile isContinuation).length else 0

/-- The code point that the payload bits of a well-formed character spell. -/
def codePoint (first : UInt8) (more : List UInt8) : Nat :=
  let start := match more.length with
    | 0 => first.toNat
    | 1 => first.toNat % 32
    | 2 => first.toNat % 16
    | _ => first.toNat % 8
  more.foldl (fun n b => n * 64 + b.toNat % 64) start

def replacement : Char := '\uFFFD'

/-- Characters of the bytes. A byte that cannot start a character is replaced alone, a character
that breaks off is replaced together with the bytes it has. -/
def lossyChars : List UInt8 → List Char
  | [] => []
  | b :: rest =>
    match lead? b with
    | none => replacement :: lossyChars rest
    | some l =>
      let n := continuing l rest
      let c := if n = l.more then Char.ofNat (codePoint b (rest.take n)) else replacement
      c :: lossyChars (rest.drop n)
termination_by bytes => bytes.length
decreasing_by all_goals simp only [List.length_cons, List.length_drop]; omega

/-- The text of the bytes if they are well formed, the reading with replacements otherwise. -/
def ofBytesLossy (bytes : ByteArray) : String :=
  match String.fromUTF8? bytes with
  | some s => s
  | none => String.ofList (lossyChars bytes.toList)

end Groundwork.Text
