import Groundwork.Install
/-!
Factory reset. Seeds are checked and written before anything irreversible happens; once the security
chip has been cleared the data partitions are deleted and the machine reboots into a first boot.
-/
namespace Groundwork

structure ResetRequest where
  /-- The payload of each seed to write. -/
  seeds : Dict ByteArray := .empty
  /-- Drop every seed that is there instead of merging. -/
  wipeSeeds : Bool := false
  /-- Go on if the security chip cannot be cleared. -/
  allowChipFailure : Bool := false

namespace ResetRequest

open Json

/-- How deep a seed may be inside a request: two levels are around it. -/
def seedDepth : Nat := depthLimit - 2

def ofRaw (r : Raw) : Except Error ResetRequest := do
  let fs ← Fields.ofRaw ["seeds", "wipe_existing_seeds", "allow_tpm_reset_failure"] r
  let seeds ← fs.defaulting "seeds" .empty (·.dictionary (Value.ofRaw seedDepth))
  let wipeSeeds ← fs.defaulting "wipe_existing_seeds" false Raw.boolean
  let allowChipFailure ← fs.defaulting "allow_tpm_reset_failure" false Raw.boolean
  return ⟨seeds.mapValues fun v => v.encode.toByteArray, wipeSeeds, allowChipFailure⟩

/-- The request in a document that holds each seed as a document of its own. -/
def ofJson (body : ByteArray) : Except Failure ResetRequest :=
  ((Raw.parse body.toList).bind ofRaw).mapError fun e => .serialization e.message

/-- Every seed needs a proper name and an object for its payload. -/
def validate (r : ResetRequest) : Except Failure Unit :=
  r.seeds.entries.forM fun (seed, payload) => do
    Seed.validateName seed
    Seed.validatePayload seed payload

/-- The seeds of the request put in the place of their earlier versions. -/
def mergeInto (r : ResetRequest) (b : Bundle) : Bundle :=
  r.seeds.entries.foldl (fun b (seed, payload) => b.insert seed payload) b

end ResetRequest

namespace Reset

variable (env : Environment) (config : Config)

def clearCommand : Command := ⟨"tpm2_clear", []⟩

/-- Writes the seeds of the request to the disk that the system lives on, and returns that disk. -/
def writeSeeds (request : ResetRequest) : Action String := do
  Action.ofExcept request.validate
  let disk ← systemDisk env config.paths
  let partition := partitionPath disk config.layout.seed
  let bundle ← if request.wipeSeeds then pure .empty else Bundle.load partition
  (request.mergeInto bundle).store partition
  return disk

def clearChip (allowFailure : Bool) : Action Unit := do
  Action.logInfo "Clearing TPM state"
  match ← Action.attempt (Action.runChecked env clearCommand) with
  | .ok _ => return
  | .error e =>
    if allowFailure then Action.logWarning s!"Ignoring TPM clear failure: {e.message}"
    else throw (e.mark "Clearing the TPM")

/-- Resets the machine. The result is the delay of the reboot that is armed. -/
def run (request : ResetRequest) : Action Nat := do
  let disk ← writeSeeds env config request
  clearChip env request.allowChipFailure
  config.layout.resetTargets.forM fun index =>
    Action.marking "Deleting data partitions" (PartitionTable.delete env disk index)
  Install.finish config.delays.reset

end Reset

end Groundwork
