import Groundwork.Config.Yaml
import Groundwork.Config.Document
import Groundwork.Machine.Action
import Groundwork.Seed
/-!
The partition that holds the seeds, and what the seeds on it say.
-/
namespace Groundwork.Bundle

/-- The install options that a seed holds, written in the format of the file's extension. -/
def installOptions? (b : Bundle) (seed : String) : Except Failure (Option InstallOptions) :=
  match b.get? seed with
  | none => .ok none
  | some (file, payload) =>
    let decoded := match Seed.splitName? file with
      | some (_, "json") => (InstallOptions.ofJson payload.toList).mapError Json.Error.message
      | _ => InstallOptions.ofYaml payload
    (decoded.map some).mapError (.invalidSeedPayload file)

/-- The seeds on a partition as the files are. -/
def onPartition (t : FileTree) (partition : String) : Except Failure Bundle := do
  ofBytes (← (t.read partition).mapError .system)

/-- Reads the seeds on a partition. -/
def load (partition : String) : Action Bundle := do
  Action.ofExcept (onPartition (← get).files partition)

/-- Puts the archive of the seeds in the place of what a partition holds. -/
def overwrite (b : Bundle) (partition : String) (t : FileTree) : Except SystemError FileTree := do
  let (place, t) ← t.create partition
  .ok (t.refill place b.toArchive.1)

/-- Writes the seeds to a partition. A seed that cannot be archived breaks the archive off. -/
def store (b : Bundle) (partition : String) : Action Unit := do
  Action.logInfo s!"Writing {b.size} seed file(s) to {partition}"
  Action.alter partition (b.overwrite partition)
  match b.toArchive.2 with
  | none => return
  | some reason => throw (.system (.badArchive reason))

end Groundwork.Bundle
