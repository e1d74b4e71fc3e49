import Groundwork.Install.Copy
import Groundwork.Install.Target
import Groundwork.Partition.Table
/-!
Installing the running system to another disk. The partition table is made anew entry by entry,
since the two disks may differ in their sector sizes; then the contents are copied, and the machine
reboots when the install media is gone.
-/
namespace Groundwork

structure InstallPlan where
  source : Source
  target : Disk
  candidates : List Disk
  deriving DecidableEq

namespace Install

variable (env : Environment) (config : Config)

/-- Looks for the source and the target and touches nothing. -/
def plan (options : InstallOptions) : Action InstallPlan := do
  let source ← Source.detect env config
  let candidates ← Disk.all env
  let target ← Action.ofExcept
    (Disk.selectTarget (← get).files config source candidates options.selector)
  return ⟨source, target, candidates⟩

/-- Whether the target has to be wiped, if it may be installed to at all. -/
def mustWipe (options : InstallOptions) (target : String) : TableState → Action Bool
  | .absent => return options.forceInstall
  | .present =>
    if options.forceInstall then return true else throw (.existingPartitionTable target)
  | .damaged => do
    Action.logWarning s!"{target} has a damaged partition table, installing over it"
    return true

def discardCommand (target : String) : Command := ⟨"blkdiscard", ["-f", target]⟩

def swapoffCommand : Command := ⟨"swapoff", ["-a"]⟩

def unmountCommand (mount : String) : Command := ⟨"umount", [mount]⟩

/-- Destroys the target's table and discards its blocks. That the tools fail does not matter. -/
def wipe (target : String) : Action Unit := do
  PartitionTable.zap env target
  Action.logInfo s!"Discarding {target}"
  let _ ← Action.run env (discardCommand target)

/-- Unmounts the boot partition. Media that cannot be written to may stay mounted. -/
def unmountBoot (source : Source) : Action Unit := do
  let mount := config.paths.bootMount
  Action.logInfo s!"Unmounting {mount}"
  match ← Action.attempt (Action.runChecked env (unmountCommand mount)) with
  | .ok _ => return
  | .error e =>
    if source.readOnly then
      Action.logWarning s!"Ignoring unmount failure on read-only media: {e.message}"
    else throw e

/-- Prepares the target and releases the source. -/
def teardown (source : Source) (target : String) (wipes : Bool) : Action Unit := do
  if wipes then wipe env target
  Action.logInfo "Disabling swap"
  let _ ← Action.runChecked env swapoffCommand
  unmountBoot env config source

/-- The disk whose table is read. Optical media has its table on the drive itself. -/
def tableDevice (source : Source) : String :=
  if source.optical then config.paths.opticalDevice else source.device

/-- The numbers of the partitions that are cloned. -/
def clonedIndices (source : Source) : List Nat :=
  (List.range (config.layout.clones source.readOnly)).map (· + 1)

def createPartition (source : Source) (target : String) (index : Nat) : Action Unit := do
  Action.announce
    s!"Creating partition {index} of {config.layout.clones source.readOnly}"
  let entry ← PartitionTable.info env (tableDevice config source) index
  PartitionTable.create env target entry

def copyPartition (source : Source) (target : String) (index : Nat) : Action Unit := do
  Action.announce
    s!"Copying partition {index} of {config.layout.clones source.readOnly}"
  let origin := partitionPath source.device index
  let copy := partitionPath target index
  Action.logInfo s!"Copying {origin} to {copy}"
  Copy.contents env origin copy

/-- Takes the request for an installation away from the installed system. -/
def removeSeed (target : String) : Action Unit := do
  let partition := partitionPath target config.layout.seed
  let bundle ← Bundle.load partition
  if bundle.contains Source.installSeed then (bundle.remove Source.installSeed).store partition

/-- What shows that the install media is still there. -/
def mediaMarker (source : Source) : String :=
  if source.optical then config.paths.opticalDevice
  else partitionPath source.device config.layout.boot

/-- Looks for a path until it is gone, with a sleep after each look. The number bounds the looks;
false means that the path was there each time. -/
def awaitRemoval (marker : String) : Nat → Action Bool
  | 0 => return false
  | looks + 1 => do
    match (← get).files.find marker true with
    | .ok _ =>
      Action.note (.looked marker true)
      Action.sleep env config.delays.mediaPoll
      awaitRemoval marker looks
    | .error e =>
      if e.kind = .notFound then
        Action.note (.looked marker false)
        return true
      else throw (.system e)

/-- Waits for the removal of the install media unless the reboot is forced. -/
def awaitMedia (source : Source) (forced : Bool) : Action Bool := do
  if forced then return true
  else
    let marker := mediaMarker config source
    Action.logInfo s!"Waiting for {marker} to disappear"
    awaitRemoval env config marker env.patience

/-- Flushes the disks and arms a reboot. -/
def finish (delay : Nat) : Action Nat := do
  Action.sync
  Action.arm delay
  return delay

def completion : String :=
  "Install complete. Remove the install media to reboot into the installed system."

/-- All that changes the target. -/
def write (source : Source) (target : String) (wipes : Bool) : Action Unit := do
  Action.marking "Preparing the target" (teardown env config source target wipes)
  let indices := clonedIndices config source
  indices.forM fun index =>
    Action.marking "Creating partitions" (createPartition env config source target index)
  indices.forM fun index =>
    Action.marking "Copying partitions" (copyPartition env config source target index)
  Action.tell (.progress 0 0)
  Action.marking "Removing the install seed" (removeSeed config target)

/-- The installation. Its result is the delay of the reboot that is armed, or none if the install
media was still there after all the looks that the environment allows. -/
def perform (options : InstallOptions) : Action (Option Nat) := do
  Action.announce "Starting install"
  let plan ← plan env config options
  let target := plan.target.kernelName
  Action.logInfo s!"Installing from {plan.source.device} to {plan.target.text}"
  let wipes ← mustWipe options target (← PartitionTable.check env target)
  write env config plan.source target wipes
  Action.announce completion
  let gone ← Action.marking "Waiting for media removal"
    (awaitMedia env config plan.source options.forceReboot)
  if gone then
    let delay ← finish config.delays.install
    Action.tell .done
    return some delay
  else return none

/-- Performs an installation and tells why it failed, if it does. -/
def run (options : InstallOptions) : Action (Option Nat) := do
  match ← Action.attempt (perform env config options) with
  | .ok delay => return delay
  | .error e =>
    Action.announce s!"Error: {e.message}"
    throw e

end Install

end Groundwork
