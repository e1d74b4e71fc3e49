import Groundwork.Disk
import Groundwork.Json.Decode
import Groundwork.Machine.Action
/-!
The whole disks of a machine, as the block device tool lists them, one class after the other.
-/
namespace Groundwork

/-- The classes of disks. -/
inductive DiskClass
  | nvme
  | scsi
  | virtual
  deriving DecidableEq, Repr

namespace DiskClass

/-- All classes, in the order in which their disks are preferred. -/
def all : List DiskClass := [.nvme, .scsi, .virtual]

def filter : DiskClass → String
  | nvme => "-N"
  | scsi => "-S"
  | virtual => "-v"

def query (c : DiskClass) : Command :=
  ⟨"lsblk", [c.filter, "-iJnpb", "-e", "1,2", "-o", "KNAME,ID_LINK,SIZE"]⟩

end DiskClass

namespace Disk

open Json

/-- A size is a number, the text of one, or nothing. -/
def sizeOfRaw : Raw → Except Error Nat
  | .null => .ok 0
  | r => r.counter

def ofRaw (r : Raw) : Except Error Disk := do
  let fs ← Fields.ofRaw ["kname", "id-link", "size"] r
  let kernelName ← fs.required "kname" Raw.text
  let stableId ← fs.defaulting "id-link" none (·.nullable Raw.text)
  let size ← fs.defaulting "size" 0 sizeOfRaw
  return ⟨kernelName, stableId.getD "", size⟩

def listOfRaw (r : Raw) : Except Error (List Disk) := do
  let fs ← Fields.ofRaw ["blockdevices"] r
  fs.defaulting "blockdevices" [] (·.items ofRaw)

/-- The disks of a listing. A blank one stands for no disks. -/
def ofListing (listing : String) : Except Failure (List Disk) :=
  if Text.trim listing = "" then .ok []
  else ((Raw.ofText listing).bind listOfRaw).mapError fun e => .serialization e.message

/-- The disks of one class, in the order in which they are listed. -/
def ofClass (env : Environment) (c : DiskClass) : Action (List Disk) := do
  Action.ofExcept (ofListing (← Action.runChecked env c.query).stdout)

/-- Adds a disk unless its kernel name is there already. -/
def addNew (known : List Disk) (d : Disk) : List Disk :=
  if known.any (·.same d) then known else known ++ [d]

/-- All disks by class. A disk that is listed again keeps its first place. -/
def all (env : Environment) : Action (List Disk) :=
  DiskClass.all.foldlM (fun known c => do return (← ofClass env c).foldl addNew known) []

end Disk

end Groundwork
