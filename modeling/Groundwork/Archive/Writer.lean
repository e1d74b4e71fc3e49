import Groundwork.Archive.Header
import Groundwork.Path
/-!
Writing an archive. Names are relative paths; one of more than 100 bytes is divided, its directories
going to a field of their own.
-/
namespace Groundwork.Archive

/-- The text of a component inside an archived name. -/
def componentText? (alone : Bool) : Path.Component → Except String (Option String)
  | .root => .error "paths in archives must be relative"
  | .up => .error "paths in archives must not have '..'"
  | .here => .ok (if alone then some "." else none)
  | .name text => .ok (some text)

/-- A path as it is archived: its components, with a separator at the end if it has one there. -/
def archivedName (longest : Nat) (path : String) : Except String (List UInt8) := do
  let cs := Path.components path
  let texts ← cs.mapM (componentText? (cs.length = 1))
  let shown := texts.filterMap id
  if shown.isEmpty then .error "paths in archives must have at least one component"
  else
    let tail := if path.toList.getLast? = some '/' then "/" else ""
    let bytes := (String.intercalate "/" shown ++ tail).toUTF8.toList
    if longest < bytes.length then .error "provided value is too long"
    else if bytes.contains 0 then .error "provided value contains a nul byte"
    else .ok bytes

def longestName : Nat := 100

def longestLead : Nat := 155

/-- The nearest directory above a path whose text is short enough. -/
def leadOf : Nat → String → Option String
  | 0, _ => none
  | fuel + 1, path =>
    match Path.parent? path with
    | none => none
    | some above => if above.utf8ByteSize ≤ longestLead then some above else leadOf fuel above

/-- The two parts of an archived name. -/
def divide (path : String) : Except String (List UInt8 × List UInt8) := do
  if path.utf8ByteSize ≤ longestName then .ok ([], ← archivedName longestName path)
  else
    match leadOf path.utf8ByteSize path with
    | none => .error "path cannot be split to be inserted into archive"
    | some above => do
      let lead ← archivedName longestLead above
      let rest := String.ofList (path.toList.drop (above.toList.length + 1))
      .ok (lead, ← archivedName longestName rest)

/-- Bytes followed by zeros up to a length. -/
def filled (len : Nat) (bytes : List UInt8) : List UInt8 :=
  bytes ++ List.replicate (len - bytes.length) 0

/-- A number of so many octal digits. -/
def octalDigits : Nat → Nat → List UInt8
  | 0, _ => []
  | count + 1, n => octalDigits count (n / 8) ++ [(0x30 + n % 8).toUInt8]

def octalField (len n : Nat) : List UInt8 := octalDigits (len - 1) n ++ [0]

def binaryDigits : Nat → Nat → List UInt8
  | 0, _ => []
  | count + 1, n => binaryDigits count (n / 256) ++ [(n % 256).toUInt8]

/-- A size that octal digits cannot hold is written in binary. -/
def sizeOctets (n : Nat) : List UInt8 :=
  if n < Nat.pow 8 11 then octalField 12 n else 0x80 :: binaryDigits 11 n

/-- Read and write permission for the owner alone. -/
def memberMode : Nat := 0o600

/-- The header with a given text in the place of its sum. -/
def headerWith (lead name sum : List UInt8) (size : Nat) : Header :=
  filled 100 name ++ octalField 8 memberMode ++ filled 16 [] ++ sizeOctets size ++
    octalField 12 0 ++ sum ++ [0x30] ++ filled 100 [] ++ Header.standardMagic ++ filled 80 [] ++
    filled 155 lead ++ filled 12 []

def header (lead name : List UInt8) (size : Nat) : Header :=
  let blank := headerWith lead name (List.replicate 8 0x20) size
  headerWith lead name (octalField 8 blank.sum) size

/-- A member with its padding. -/
def member (name : String) (content : ByteArray) : Except String ByteArray := do
  let (lead, name) ← divide name
  .ok ((header lead name content.size).toByteArray ++ content ++
    zeros (padded content.size - content.size))

/-- Two blocks of zeros. -/
def ending : ByteArray := zeros (2 * blockSize)

/-- Adds members until one cannot be written. The archive is ended in either case. -/
def append (written : ByteArray) : List (String × ByteArray) → ByteArray × Option String
  | [] => (written ++ ending, none)
  | (name, content) :: rest =>
    match member name content with
    | .ok bytes => append (written ++ bytes) rest
    | .error reason => (written ++ ending, some reason)

/-- The archive of some files, and why it breaks off if it does. -/
def write (files : List (String × ByteArray)) : ByteArray × Option String := append .empty files

end Groundwork.Archive
