import Groundwork.Seed.Partition
import Groundwork.Disk
/-!
The media that the running system was booted from, and the installation that its seeds ask for.
-/
namespace Groundwork

structure Source where
  /-- The disk whose partitions hold the data to copy. -/
  device : String
  readOnly : Bool
  /-- Booted from an optical drive, which is read through a mapped device. -/
  optical : Bool
  deriving DecidableEq, Repr

/-- The disk that the running system lives on. -/
def systemDisk (env : Environment) (paths : Paths) : Action String := do
  let registry := env.registry (← get).files
  Action.ofExcept (registry.underlyingDevice (paths.anchor.getD env.program) paths.deviceRoot)

/-- Whether a directory cannot be written to, found out by making a scratch file in it. -/
def isReadOnly (env : Environment) (directory : String) : Action Bool := do
  Action.consult (·.scratch directory)
  return env.isSealed directory

namespace Source

variable (env : Environment) (config : Config)

def readOnlyRemark (readOnly : Bool) : String := if readOnly then " (read-only)" else ""

/-- Optical media is not mounted, so a drive and no boot mount tell of it. -/
def detect : Action Source := do
  let paths := config.paths
  let t := (← get).files
  if !t.has paths.bootMount && t.has paths.opticalDevice then
    Action.logInfo s!"Running from optical media {paths.opticalDevice}"
    return ⟨paths.opticalMapped, true, true⟩
  else
    let device ← systemDisk env paths
    let readOnly ← isReadOnly env paths.bootMount
    Action.logInfo s!"Running from {device}{readOnlyRemark readOnly}"
    return ⟨device, readOnly, false⟩

/-- The seed that asks for an installation. -/
def installSeed : String := "install"

/-- What the seeds on a partition ask for; nothing if the partition is not there. -/
def optionsOn (t : FileTree) (partition : String) : Except Failure (Option InstallOptions) :=
  match Bundle.onPartition t partition with
  | .ok bundle => bundle.installOptions? installSeed
  | .error (.system e) => if e.kind = .notFound then .ok none else .error (.system e)
  | .error e => .error e

/-- The installation that the seeds on the media ask for. -/
def installOptions (s : Source) : Action (Option InstallOptions) := do
  Action.ofExcept (optionsOn (← get).files (partitionPath s.device config.layout.seed))

/-- The installation that this boot is for. What cannot be read asks for none. -/
def pendingInstall : Action (Option InstallOptions) := do
  match ← Action.attempt (detect env config) with
  | .error e =>
    Action.logWarning
      s!"Couldn't determine boot media, skipping install check: {e.message}"
    return none
  | .ok source =>
    match ← Action.attempt (source.installOptions config) with
    | .ok options => return options
    | .error e =>
      Action.logWarning s!"Ignoring unreadable install seed on {source.device}: {e.message}"
      return none

end Source

end Groundwork
