import Groundwork.Binary64
import Groundwork.Disk.Listing
import Groundwork.Install.Source
/-!
The disk to install to: which disks may be chosen, and which of them is.
-/
namespace Groundwork

/-- How the stable IDs of virtual media begin that a management controller offers. -/
def virtualMedia : List String := ["usb-Linux_Virtual_", "usb-Cisco_"]

/-- A size in gibibytes with two places. -/
def gibibytes (size : Nat) : String :=
  Decimal.fixed 2
    (((Binary64.ofNat size).div (Binary64.ofNat (1024 * 1024 * 1024))).toPlaces 2)

namespace Disk

/-- Whether the system may be installed to a disk. -/
def isEligible (d : Disk) (paths : Paths) (source : Source) : Bool :=
  !d.isAt source.device && !(source.optical && d.isAt paths.opticalDevice) &&
    d.stableId != "" && !virtualMedia.any (Text.startsWith d.stableId) &&
    !isOpticalDrive d.kernelName

/-- Whether two names in a directory are links to the same thing. -/
def linkedAlike (t : FileTree) (directory a b : String) : Bool :=
  match t.readLink (Path.join directory a), t.readLink (Path.join directory b) with
  | .ok x, .ok y => Path.same x y
  | _, _ => false

/-- A selector is a part of the stable ID, or another ID of the same disk. -/
def matchesSelector (d : Disk) (t : FileTree) (paths : Paths) (selector : String) : Bool :=
  Text.contains d.stableId selector || linkedAlike t paths.byId selector d.stableId

def sizedText (d : Disk) : String := s!"{d.text} {gibibytes d.size} GiB"

/-- The disk that a selector picks among those that may be chosen; without one, the only one. -/
def pick (t : FileTree) (paths : Paths) (eligible : List Disk) :
    Option String → Except Failure Disk
  | some selector =>
    match eligible.find? (·.matchesSelector t paths selector) with
    | some d => .ok d
    | none => .error (.noCandidate s!"no target device matched '{selector}'")
  | none =>
    match eligible with
    | [d] => .ok d
    | [] => .error (.noCandidate "no eligible install device found")
    | many => .error (.ambiguousTarget
        (s!"no target configured and {many.length} eligible devices found: " ++
          Text.commaSeparated (many.map Disk.text)))

/-- The target among the disks of the machine. -/
def selectTarget (t : FileTree) (config : Config) (source : Source) (candidates : List Disk)
    (selector : Option String) : Except Failure Disk := do
  if candidates.length < 2 then
    .error (.noCandidate (s!"found {candidates.length} block device(s), " ++
      "need the install media plus at least one disk"))
  else
    let d ← pick t config.paths (candidates.filter (·.isEligible config.paths source)) selector
    if d.size < config.minimumTarget then
      .error (.targetTooSmall d.text config.minimumTarget
        (Text.commaSeparated (candidates.map sizedText)))
    else .ok d

end Disk

end Groundwork
