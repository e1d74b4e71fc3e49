import Groundwork.Archive.Header
/-!
Sparse members, which leave out the gaps of a file. The header lists the blocks that are there, and
headers behind it may go on with the list.
-/
namespace Groundwork.Archive

/-- How far the blocks of a sparse member have come. -/
structure Sparse where
  /-- Where they end in the file. -/
  reached : Nat
  /-- What is left of the content. -/
  remaining : Nat

namespace Sparse

def number (bytes : List UInt8) : Except Fault Nat :=
  match Header.octal? bytes with
  | some n => .ok n
  | none => .error (.broken "numeric field was not a number")

/-- Goes on with one place of a list, which may be empty. -/
def add (size : Nat) (s : Sparse) (place : List UInt8) : Except Fault Sparse :=
  if place.headD 0 = 0 ∨ (place.drop 12).headD 0 = 0 then .ok s
  else do
    let offset ← number (place.take 12)
    let length ← number (place.drop 12)
    if length ≠ 0 ∧ (size - s.remaining) % blockSize ≠ 0 then
      .error (.broken "previous block in sparse file was not aligned to 512-byte boundary")
    else if offset < s.reached then .error (.broken "out of order or overlapping sparse blocks")
    else if Nat.pow 2 64 ≤ offset + length then
      .error (.broken "more bytes listed in sparse file than u64 can hold")
    else if s.remaining < length then
      .error (.broken "sparse file consumed more data than the header listed")
    else .ok ⟨offset + length, s.remaining - length⟩

/-- Goes on with a list of so many places, which starts somewhere in a header. -/
def addAll (size : Nat) (s : Sparse) (h : Header) (start places : Nat) : Except Fault Sparse :=
  (List.range places).foldlM (fun s i => s.add size (h.field (start + 24 * i) 24)) s

/-- Goes on with the lists of the headers from a place on. Returns the place behind them as well. -/
def addHeaders (archive : ByteArray) (size place : Nat) (s : Sparse) :
    Except Fault (Sparse × Nat) :=
  if _ : archive.size ≤ place then .error (.broken "failed to read extension")
  else if archive.size < place + blockSize then .error (.broken "failed to read entire block")
  else do
    let h : Header := (archive.extract place (place + blockSize)).toList
    let s ← s.addAll size h 0 21
    if h.field 504 1 = [1] then addHeaders archive size (place + blockSize) s
    else .ok (s, place + blockSize)
termination_by archive.size - place
decreasing_by
  unfold blockSize
  omega

/-- The place behind all headers of a sparse member. Its blocks have to make up the file and to use up
the content. -/
def behind (archive : ByteArray) (h : Header) (size start : Nat) : Except Fault Nat := do
  let s ← addAll size ⟨0, size⟩ h 386 4
  let (s, place) ← if h.field 482 1 = [1] then addHeaders archive size start s else .ok (s, start)
  let whole ← number (h.field 483 12)
  if s.reached ≠ whole then
    .error (.broken "mismatch in sparse file chunks and size in header")
  else if s.remaining ≠ 0 then
    .error (.broken "mismatch in sparse file chunks and entry size in header")
  else .ok place

end Sparse

end Groundwork.Archive
