import Groundwork.Json.Decode
import Groundwork.Failure
/-!
What the workflows have to know about the machine, and what an installation is asked to do.
-/
namespace Groundwork

/-- Places on the machine. Without an anchor the running program is the path on the system disk. -/
structure Paths where
  anchor : Option String := none
  registry : String := "/sys/class/block"
  deviceRoot : String := "/dev"
  byId : String := "/dev/disk/by-id"
  mapper : String := "/dev/mapper"
  bootMount : String := "/boot"
  opticalDevice : String := "/dev/sr0"
  opticalMapped : String := "/dev/mapper/sr0"
  keys : String := "/var/lib/strata"
  rebootTrigger : String := "/proc/sysrq-trigger"
  deriving DecidableEq

/-- The numbers of the partitions by their role, and how many are cloned. -/
structure Layout where
  boot : Nat := 1
  seed : Nat := 2
  swap : Nat := 9
  root : Nat := 10
  localData : Nat := 11
  cloneCount : Nat := 8
  cloneCountReadOnly : Nat := 5
  deriving DecidableEq

/-- Lengths of time in milliseconds. -/
structure Delays where
  reset : Nat := 1000
  install : Nat := 5000
  mediaPoll : Nat := 1000
  deriving DecidableEq

structure PoolWatch where
  /-- Seconds from one poll to the next. -/
  interval : Nat := 300
  /-- The pools to report; all of them if none is named. -/
  pools : List String := []
  deriving DecidableEq

structure Config where
  paths : Paths := {}
  layout : Layout := {}
  /-- The fewest bytes of a disk that the system may be installed to. -/
  minimumTarget : Nat := 50 * 1024 * 1024 * 1024
  delays : Delays := {}
  watch : PoolWatch := {}
  deriving DecidableEq

namespace Layout

/-- The partitions that a reset deletes, in this order. -/
def resetTargets (l : Layout) : List Nat := [l.swap, l.root, l.localData]

def clones (l : Layout) (readOnlySource : Bool) : Nat :=
  if readOnlySource then l.cloneCountReadOnly else l.cloneCount

/-- Whether a partition that a reset deletes is one that it needs. -/
def isPreserved (l : Layout) (index : Nat) : Bool :=
  index = 0 || index = l.boot || index = l.seed

def validate (l : Layout) : Except Failure Unit :=
  if l.cloneCount = 0 ∨ l.cloneCountReadOnly = 0 then
    .error (.configuration "partition clone counts must be greater than zero")
  else if l.boot = l.seed then
    .error (.configuration "boot and seed partitions must differ")
  else match l.resetTargets.find? l.isPreserved with
    | some index => .error (.configuration
        s!"partition {index} cannot be both preserved and destroyed by a reset")
    | none => .ok ()

end Layout

def PoolWatch.wants (w : PoolWatch) (pool : String) : Bool :=
  w.pools.isEmpty || w.pools.contains pool

def Config.validate (c : Config) : Except Failure Unit := do
  c.layout.validate
  if c.watch.interval = 0 then
    .error (.configuration "health.poll_interval_secs must be greater than zero")
  else .ok ()

/-- What an installation is asked to do. -/
structure InstallOptions where
  /-- Install over a partition table that is intact. -/
  forceInstall : Bool := false
  /-- Reboot without waiting for the removal of the install media. -/
  forceReboot : Bool := false
  /-- The ID that the target is asked to have. -/
  target : Option String := none
  deriving DecidableEq

/-- An empty ID asks for nothing. -/
def InstallOptions.selector (o : InstallOptions) : Option String := o.target.filter (· ≠ "")

end Groundwork
