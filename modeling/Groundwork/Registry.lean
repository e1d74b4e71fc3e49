import Groundwork.Decimal
import Groundwork.Failure
import Groundwork.Path
/-!
The kernel's registry of block devices, and the way from a path to the disk that it lives on.

Every entry has a device number. A partition has a `partition` attribute and links to a place below
its disk; a mapped device lists what it is made of in its directory `slaves`.
-/
namespace Groundwork

structure DeviceNumber where
  major : Nat
  minor : Nat
  deriving DecidableEq, Repr

namespace DeviceNumber

def text (n : DeviceNumber) : String := s!"{n.major}:{n.minor}"

/-- Two numbers of 64 bits with a colon between them and blanks around the whole. -/
def parse? (s : String) : Option DeviceNumber := do
  let (major, minor) ← Text.cutFirst ':' (Text.trimChars s.toList)
  some ⟨← Decimal.unsigned? 64 major, ← Decimal.unsigned? 64 minor⟩

def parse (s : String) : Except Failure DeviceNumber :=
  match parse? s with
  | some n => .ok n
  | none => .error (.invalidInput s!"Malformed device number '{Text.trim s}'")

end DeviceNumber

/-- What the registry answers. Paths other than anchors are relative to it. -/
structure Registry where
  /-- The number of the device that holds the file system of a path. -/
  deviceNumber : String → Except SystemError DeviceNumber
  /-- The names of all entries, in ascending order. -/
  entries : Except SystemError (List String)
  /-- The content of an attribute. -/
  read : String → Except SystemError String
  has : String → Bool
  /-- The names in a directory, in ascending order. -/
  list : String → Except SystemError (List String)
  link : String → Except SystemError String

namespace Registry

variable {α : Type}

def ask (answer : Except SystemError α) : Except Failure α := answer.mapError .system

def entryHas (r : Registry) (n : DeviceNumber) (entry : String) : Bool :=
  match r.read (entry ++ "/dev") with
  | .ok s => DeviceNumber.parse? s == some n
  | .error _ => false

/-- The first entry with a device number. Entries whose number cannot be read do not count. -/
def findEntry (r : Registry) (n : DeviceNumber) : Except Failure String := do
  match (← ask r.entries).find? (r.entryHas n) with
  | some entry => .ok entry
  | none => .error (.deviceNotFound s!"no block device with number {n.text}")

/-- The disk of a partition is the directory that its link points into; a whole disk stands directly
below `block` and is its own. -/
def parentDisk (name link : String) : String :=
  match Path.parentName? link with
  | some parent => if parent = "block" then name else parent
  | none => name

/-- What an entry rests on. -/
inductive Base
  | disk (name : String)
  /-- Another mapped device. -/
  | mapped (entry : String)

/-- Looks one layer below an entry. -/
def baseOf (r : Registry) (entry : String) : Except Failure Base :=
  if r.has (entry ++ "/partition") then do
    .ok (.disk (parentDisk entry (← ask (r.link entry))))
  else do
    match ← ask (r.list (entry ++ "/slaves")) with
    | [] => .ok (.disk entry)
    | first :: _ =>
      let link ← ask (r.link (entry ++ "/slaves/" ++ first))
      match Path.fileName? link with
      | none => .error (.deviceNotFound s!"unreadable slave link {link}")
      | some slave =>
        if Text.startsWith slave "dm-" then .ok (.mapped slave)
        else .ok (.disk (parentDisk slave link))

/-- The disk below an entry. The first argument says how many mapped devices may still follow. -/
def diskOf (r : Registry) : Nat → String → Except Failure String
  | layers, entry => do
    match ← r.baseOf entry with
    | .disk name => .ok name
    | .mapped slave =>
      match layers with
      | 0 => .error (.deviceNotFound s!"mapped device chain below {entry} is too deep")
      | layers + 1 => diskOf r layers slave

/-- A mapped device may stand on one more mapped device. -/
def mappedLayers : Nat := 1

/-- The disk that holds a path, as a path below the device directory. -/
def underlyingDevice (r : Registry) (anchor deviceRoot : String) : Except Failure String := do
  let n ← ask (r.deviceNumber anchor)
  let entry ← r.findEntry n
  .ok (Path.join deviceRoot (← r.diskOf mappedLayers entry))

end Registry

end Groundwork
