import Groundwork.Path
/-!
Whole disks as enumeration reports them, and the paths of their partitions.
-/
namespace Groundwork

/-- A disk by its kernel name, which may change from boot to boot, and its stable ID, which is empty
for a disk without one. -/
structure Disk where
  kernelName : String
  stableId : String
  size : Nat
  deriving DecidableEq, Repr

namespace Disk

/-- Whether the disk is the one at a path. -/
def isAt (d : Disk) (path : String) : Bool := Path.same d.kernelName path

/-- Two reports are about one disk if the kernel names agree. -/
def same (a b : Disk) : Bool := a.isAt b.kernelName

def text (d : Disk) : String :=
  if d.stableId = "" then d.kernelName else s!"{d.kernelName} ({d.stableId})"

end Disk

/-- Whether the first `/mapper/sr` of a path is followed by a digit. -/
def namesMappedOptical : List Char → Bool
  | [] => false
  | c :: cs =>
    match Text.after? "/mapper/sr".toList (c :: cs) with
    | some rest => rest.head?.any fun d => '0' ≤ d && d ≤ '9'
    | none => namesMappedOptical cs

/-- Whether a disk puts a `p` before its partition numbers. -/
def takesSeparator (device : String) : Bool :=
  Text.contains device "/nvme" || Text.contains device "/mmcblk" ||
    Text.contains device "/loop" || namesMappedOptical device.toList

def partitionSeparator (device : String) : String := if takesSeparator device then "p" else ""

def partitionPath (device : String) (index : Nat) : String :=
  device ++ partitionSeparator device ++ toString index

/-- Whether a path is `/dev/sr` and a number. -/
def isOpticalDrive (device : String) : Bool :=
  match Text.after? "/dev/sr".toList device.toList with
  | some rest => !rest.isEmpty && rest.all fun d => '0' ≤ d && d ≤ '9'
  | none => false

end Groundwork
