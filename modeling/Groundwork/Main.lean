import Groundwork.CommandLine
import Groundwork.Machine.Scripted
/-!
A rehearsal of the programs on a machine without files, where every tool succeeds silently: it shows
what an order would run, and nothing is changed.
-/
namespace Groundwork.Rehearsal

/-- What answers a rehearsal. -/
def environment (config : Config) : Environment :=
  let nothing : RegistryTable := ⟨[], [], [], [], []⟩
  let script : Script := {
    registry := fun _ => nothing.registry
    power := .trigger config.paths.rebootTrigger }
  script.environment "groundwork"

/-- Shows an event: output as it is, everything else on the error stream. -/
def display : Event → IO Unit
  | .printed text => IO.println text
  | .complained text => IO.eprintln text
  | .logged .error text => IO.eprintln s!"[ERROR] {text}"
  | .logged .warning text => IO.eprintln s!"[WARN] {text}"
  | .logged .info text => IO.eprintln s!"[INFO] {text}"
  | .ran call => IO.eprintln s!"[RUN] {call.command.text}"
  | .told notice =>
    match notice.logLine? with
    | some text => IO.eprintln s!"[INFO] {text}"
    | none => return
  | _ => return

/-- Rehearses the manager, or the daemon if that is the first argument. -/
def rehearse (arguments : List String) : IO UInt32 := do
  let start : Machine := ⟨.empty, [], []⟩
  let (code, final) ← match arguments with
    | "daemon" :: rest => pure ((CommandLine.serve environment rest).run start)
    | arguments => do
      let input ← (← IO.getStdin).getLine
      pure ((CommandLine.manage environment arguments input).run start)
  final.history.forM display
  return code.toUInt32

end Groundwork.Rehearsal

def main (arguments : List String) : IO UInt32 := Groundwork.Rehearsal.rehearse arguments
