import Groundwork.Archive.Sparse
/-!
The regular files of an archive, in the order in which they stand in it.
-/
namespace Groundwork.Archive

structure Member where
  name : String
  content : ByteArray

/-- A header with the place of its content. -/
structure Entry where
  header : Header
  /-- Where the content starts. -/
  start : Nat
  /-- How long the content is by the header. -/
  declared : Nat
  /-- How far the content may be read; an extension can set it apart from the declared size. -/
  limit : Nat
  /-- Where the next header is. -/
  next : Nat

/-- One record of an extension: its key and its value. -/
def extensionRecord? (line : List UInt8) : Option (List UInt8 × List UInt8) := do
  let digits := line.takeWhile (· ≠ 0x20)
  let rest := line.drop (digits.length + 1)
  if digits.length = line.length then none
  else
    let s ← String.fromUTF8? digits.toByteArray
    let reported ← Decimal.unsigned? 64 s.toList
    let key := rest.takeWhile (· ≠ 0x3D)
    if reported = line.length + 1 ∧ key.length < rest.length then
      some (key, rest.drop (key.length + 1))
    else none

def splitLines : List UInt8 → List (List UInt8)
  | [] => [[]]
  | b :: bs =>
    if b = 0x0A then [] :: splitLines bs
    else match splitLines bs with
      | [] => [[b]]
      | line :: rest => (b :: line) :: rest

/-- The records of an extension up to the first empty line; none for a line that is no record. -/
def extensionRecords (bytes : List UInt8) : List (Option (List UInt8 × List UInt8)) :=
  ((splitLines bytes).takeWhile (· ≠ [])).map extensionRecord?

def pathKey : List UInt8 := "path".toUTF8.toList

def sizeKey : List UInt8 := "size".toUTF8.toList

/-- The size that an extension gives. A line that is no record ends the search. -/
def extensionSize? : List (Option (List UInt8 × List UInt8)) → Option Nat
  | [] => none
  | none :: _ => none
  | some (key, value) :: rest =>
    if key = sizeKey then
      (String.fromUTF8? value.toByteArray).bind fun s => Decimal.unsigned? 64 s.toList
    else extensionSize? rest

/-- The name that an extension gives. -/
def extensionPath? (records : List (Option (List UInt8 × List UInt8))) : Option (List UInt8) :=
  records.findSome? fun r => r.bind fun (key, value) => if key = pathKey then some value else none

/-- Whether a place is past the end, at the end, inside the last partial block, or before a block. -/
def blockAt (archive : ByteArray) (place : Nat) : Except Fault (Option Header) :=
  if archive.size < place then .error (.broken "unexpected EOF during skip")
  else if archive.size = place then .ok none
  else if archive.size < place + blockSize then .error (.broken "failed to read entire block")
  else .ok (some (archive.extract place (place + blockSize)).toList)

/-- The header at a place, if the archive does not end there. -/
def entryAt (archive : ByteArray) (place : Nat) (extension : Option (List UInt8)) :
    Except Fault (Option Entry) := do
  match ← blockAt archive place with
  | none => .ok none
  | some h =>
    if h.all (· = 0) then .ok none
    else if !h.isIntact then .error (.broken "archive header checksum mismatch")
    else
      match Header.number? h.sizeField with
      | none => .error (.broken "numeric field was not a number")
      | some declared =>
        let limit := ((extension.bind fun bytes => extensionSize? (extensionRecords bytes))).getD
          declared
        let start := place + blockSize
        if Nat.pow 2 64 ≤ start + padded limit then .error (.broken "size overflow")
        else .ok (some ⟨h, start, declared, limit, start + padded limit⟩)

def Entry.isFile (e : Entry) : Bool := e.header.kind == 0x30 || e.header.kind == 0

/-- Whether headers of this format may describe the member after them. -/
def Entry.mayDescribe (e : Entry) : Bool := e.header.isStandard || e.header.isCommon

def Entry.data (e : Entry) (archive : ByteArray) : ByteArray :=
  archive.extract e.start (e.start + e.limit)

/-- What members before a member say about it. -/
structure Description where
  longName : Option (List UInt8) := none
  longLink : Bool := false
  extension : Option (List UInt8) := none

def Description.isEmpty (d : Description) : Bool :=
  d.longName.isNone && !d.longLink && d.extension.isNone

/-- A zero at the end of a long name does not belong to it. -/
def longPath (bytes : List UInt8) : List UInt8 :=
  if bytes.getLast? = some 0 then bytes.dropLast else bytes

def Description.path (d : Description) (h : Header) : List UInt8 :=
  match d.longName with
  | some bytes => longPath bytes
  | none => (d.extension.bind fun bytes => extensionPath? (extensionRecords bytes)).getD h.path

/-- The file of an entry, which has to be there in full. -/
def fileOf (archive : ByteArray) (e : Entry) (d : Description) : Except Fault Member :=
  let name := Text.ofBytesLossy (d.path e.header).toByteArray
  let available := min e.limit (archive.size - e.start)
  if available < e.declared then .error (.truncated name available e.declared)
  else .ok ⟨name, archive.extract e.start (e.start + e.declared)⟩

/-- Reads on from a place. The first argument bounds the number of headers. -/
def membersFrom (archive : ByteArray) :
    Nat → Nat → Description → Except Fault (List Member)
  | 0, _, _ => .ok []
  | fuel + 1, place, d => do
    match ← entryAt archive place d.extension with
    | none =>
      if d.isEmpty then .ok []
      else .error (.broken
        "members found describing a future member but no future member found")
    | some e =>
      if e.mayDescribe && e.header.kind == 0x4C then
        if d.longName.isSome then
          .error (.broken "two long name entries describing the same member")
        else
          membersFrom archive fuel e.next
            { d with longName := some (e.data archive).toList }
      else if e.mayDescribe && e.header.kind == 0x4B then
        if d.longLink then .error (.broken "two long link entries describing the same member")
        else membersFrom archive fuel e.next { d with longLink := true }
      else if e.mayDescribe && e.header.kind == 0x78 then
        if d.extension.isSome then
          .error (.broken "two pax extensions entries describing the same member")
        else
          membersFrom archive fuel e.next
            { d with extension := some (e.data archive).toList }
      else if e.header.kind == 0x53 then
        if e.header.isCommon then do
          let behind ← Sparse.behind archive e.header e.limit e.start
          membersFrom archive fuel (e.next + (behind - e.start)) {}
        else .error (.broken "sparse entry type listed but not GNU header")
      else if e.isFile then do
        let m ← fileOf archive e d
        let rest ← membersFrom archive fuel e.next {}
        .ok (m :: rest)
      else membersFrom archive fuel e.next {}

/-- Whether the bytes begin like an archive. -/
def hasMagic (bytes : ByteArray) : Bool :=
  262 ≤ bytes.size && (bytes.extract 257 262).toList == [0x75, 0x73, 0x74, 0x61, 0x72]

/-- The files of an archive. -/
def members (archive : ByteArray) : Except Fault (List Member) :=
  membersFrom archive (archive.size / blockSize + 1) 0 {}

end Groundwork.Archive
