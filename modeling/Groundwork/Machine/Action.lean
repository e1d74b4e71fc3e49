import Groundwork.Machine
import Groundwork.Decimal
/-!
The steps from which the workflows are made: running tools, reading and changing files, telling,
sleeping and rebooting.
-/
namespace Groundwork

variable {α : Type}

namespace Machine

def record (m : Machine) (e : Event) : Machine := { m with history := m.history ++ [e] }

end Machine

namespace Action

/-- What a step comes to on a machine, and the machine afterwards. -/
def perform (a : Action α) (m : Machine) : Except Failure α × Machine := (a.run).run m

def note (e : Event) : Action Unit := modify (·.record e)

def logInfo (text : String) : Action Unit := note (.logged .info text)

def logWarning (text : String) : Action Unit := note (.logged .warning text)

def logError (text : String) : Action Unit := note (.logged .error text)

def tell (n : Notice) : Action Unit := note (.told n)

def announce (text : String) : Action Unit := tell (.message text)

def print (text : String) : Action Unit := note (.printed text)

def complain (text : String) : Action Unit := note (.complained text)

/-- Goes on with a result that has been worked out without the machine. -/
def ofExcept (r : Except Failure α) : Action α := ExceptT.mk (pure r)

/-- Performs a step and hands over its result, good or bad. -/
def attempt (a : Action α) : Action (Except Failure α) := ExceptT.lift a.run

/-- Marks the failures of a step that comes after a device was modified. -/
def marking (step : String) (a : Action α) : Action α :=
  ExceptT.mk do return (← a.run).mapError (Failure.mark step)

/-- Asks the files and changes nothing. -/
def consult (f : FileTree → Except SystemError α) : Action α := do
  ofExcept ((f (← get).files).mapError .system)

/-- Changes the files at a path. -/
def alter (path : String) (f : FileTree → Except SystemError FileTree) : Action Unit := do
  let files ← consult f
  modify fun m => { m with files }
  note (.wrote path)

/-- Makes a directory and those above it. What has been made stays if that fails. -/
def makePath (path : String) : Action Unit := do
  let (files, r) := (← get).files.makePath path
  modify fun m => { m with files }
  ofExcept (r.mapError .system)

/-- Runs a tool. A tool that is not installed is not run. -/
def run (env : Environment) (c : Command) : Action Output := do
  let m ← get
  match env.tool m c with
  | none => throw (.toolNotFound c.program)
  | some (output, files) =>
    set { m with files }
    note (.ran ⟨c, m.files, output⟩)
    return output

def commandFailure (c : Command) (o : Output) : Failure :=
  .commandFailed c.text o.status o.diagnostic

/-- Runs a tool that has to succeed. -/
def runChecked (env : Environment) (c : Command) : Action Output := do
  let output ← run env c
  if output.success then return output else throw (commandFailure c output)

def sleep (env : Environment) (milliseconds : Nat) : Action Unit := do
  note (.slept milliseconds)
  modify fun m => { m with files := env.elapse m }

/-- Flushes all pending writes. -/
def sync : Action Unit := note .synced

/-- Puts a byte at the start of a file that has to be there. -/
def overwriteFirst (path : String) (b : UInt8) (t : FileTree) : Except SystemError FileTree := do
  let (place, content, _) ← t.openExisting path
  .ok (t.refill place (ByteArray.mk #[b] ++ content.extract 1 content.size))

/-- Writes the trigger of an immediate reboot. -/
def trigger (path : String) : Action Unit := do
  logWarning s!"Triggering immediate reboot via {path}"
  alter path (overwriteFirst path 0x62)

def reboot (env : Environment) : Action Unit := do
  note .rebooted
  match env.power with
  | .noted denied => if denied then throw (.system .rebootDenied)
  | .trigger path => trigger path

/-- Arms a reboot, which then comes by itself and cannot be called off. -/
def arm (delay : Nat) : Action Unit := do
  logInfo s!"Reboot scheduled in {Decimal.duration delay}"
  modify fun m => { m with armed := m.armed ++ [delay] }

def fire (env : Environment) (delay : Nat) : Action Unit := do
  sleep env delay
  match ← attempt (reboot env) with
  | .ok () => return
  | .error (.system e) => logError s!"Failed to trigger reboot: {e.message}"
  | .error e => logError s!"Failed to trigger reboot: {e.message}"

/-- Lets every armed reboot come. -/
def settle (env : Environment) : Action Unit := do
  let delays := (← get).armed
  modify fun m => { m with armed := [] }
  delays.forM (fire env)

end Action

end Groundwork
