import Groundwork.Text.Utf8
import Groundwork.Decimal
/-!
The blocks of an archive. A member is a header block followed by its content, padded with zeros to
whole blocks; numbers are octal text.
-/
namespace Groundwork.Archive

def blockSize : Nat := 512

/-- The length of a content with its padding. -/
def padded (size : Nat) : Nat := (size + (blockSize - 1)) / blockSize * blockSize

def zeros (n : Nat) : ByteArray := ⟨Array.replicate n 0⟩

/-- What keeps an archive from being read. -/
inductive Fault
  | broken (reason : String)
  | truncated (name : String) (read expected : Nat)
  deriving DecidableEq, Repr

/-- A header block as its bytes. -/
abbrev Header := List UInt8

namespace Header

def field (h : Header) (start len : Nat) : List UInt8 := (h.drop start).take len

/-- A text field ends before its first zero. -/
def text (bytes : List UInt8) : List UInt8 := bytes.takeWhile (· ≠ 0)

def octalDigit (c : Char) : Bool := '0' ≤ c && c ≤ '7'

/-- Octal digits, perhaps after a plus sign, with blanks around them. -/
def octal? (bytes : List UInt8) : Option Nat := do
  let s ← String.fromUTF8? (text bytes).toByteArray
  let digits := match Text.trimChars s.toList with
    | '+' :: rest => rest
    | cs => cs
  if digits.isEmpty || !digits.all octalDigit then none
  else
    let n := digits.foldl (fun n c => n * 8 + (c.toNat - 48)) 0
    if n < Nat.pow 2 64 then some n else none

/-- With the top bit of the first byte set, the last eight bytes are a binary number. -/
def number? (bytes : List UInt8) : Option Nat :=
  match bytes with
  | [] => none
  | b :: _ =>
    if 0x80 ≤ b then some ((bytes.drop (bytes.length - 8)).foldl (fun n b => n * 256 + b.toNat) 0)
    else octal? bytes

def name (h : Header) : List UInt8 := h.field 0 100

def sizeField (h : Header) : List UInt8 := h.field 124 12

def kind (h : Header) : UInt8 := (h.field 156 1).headD 0

def lead (h : Header) : List UInt8 := h.field 345 155

/-- The magic and the version that the standard format has. -/
def standardMagic : List UInt8 := [0x75, 0x73, 0x74, 0x61, 0x72, 0, 0x30, 0x30]

/-- The magic and the version of the other common format. -/
def commonMagic : List UInt8 := [0x75, 0x73, 0x74, 0x61, 0x72, 0x20, 0x20, 0]

def isStandard (h : Header) : Bool := h.field 257 8 == standardMagic

def isCommon (h : Header) : Bool := h.field 257 8 == commonMagic

def total (bytes : List UInt8) : Nat := bytes.foldl (fun n b => n + b.toNat) 0

/-- The sum of all bytes, those of the sum itself counted as blanks. -/
def sum (h : Header) : Nat := total (h.take 148) + 8 * 0x20 + total (h.drop 156)

def isIntact (h : Header) : Bool := octal? (h.field 148 8) == some h.sum

/-- The name of the member, with what stands before it in the field for long names. -/
def path (h : Header) : List UInt8 :=
  let lead := text h.lead
  if h.isStandard && !lead.isEmpty then lead ++ 0x2F :: text h.name else text h.name

end Header

end Groundwork.Archive
