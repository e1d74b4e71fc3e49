import Groundwork.Command
import Groundwork.Failure
import Groundwork.Registry.Sources
/-!
A machine: its files, all that it was seen to do, and the reboots that are armed on it. What answers
its requests from outside, tools and time above all, is an environment.
-/
namespace Groundwork

/-- A command that a tool has answered. -/
structure Call where
  command : Command
  /-- The files when the tool was started. -/
  files : FileTree
  output : Output

inductive Level
  | error
  | warning
  | info
  deriving DecidableEq, Repr

/-- What the operator is told about the progress of an installation. -/
inductive Notice
  | message (text : String)
  | progress (current max : Nat)
  | done
  deriving DecidableEq, Repr

/-- The line that a notice leaves in the log. Progress towards nothing is not worth one. -/
def Notice.logLine? : Notice → Option String
  | .message text => some text
  | .progress current max =>
    if max = 0 then none else some s!"Progress: {current}/{max} ({current * 100 / max}%)"
  | .done => some "Done"

inductive Event
  | ran (call : Call)
  | wrote (path : String)
  /-- A look whether a path leads to something, and what was seen. -/
  | looked (path : String) (present : Bool)
  | slept (milliseconds : Nat)
  | synced
  | rebooted
  | told (notice : Notice)
  | logged (level : Level) (text : String)
  | printed (text : String)
  | complained (text : String)

structure Machine where
  files : FileTree
  /-- What happened, the earliest first. -/
  history : List Event
  /-- The delays of the reboots that will come by themselves. -/
  armed : List Nat

/-- Where a request for a reboot goes. -/
inductive Power
  /-- It is only noted, and perhaps denied. -/
  | noted (denied : Bool)
  /-- It is written into a trigger file. -/
  | trigger (path : String)

/-- How one read of a file comes back. -/
inductive Delivery
  | interrupted
  /-- At most that many bytes; with none of them the file seems to end. -/
  | upTo (count : Nat)

/-- The length of a drive key in bytes. -/
def keyLength : Nat := 32

/-- What answers a machine. Every answer may depend on all that has happened so far. -/
structure Environment where
  /-- The answer of a tool and the files that it leaves; none if it is not installed. -/
  tool : Machine → Command → Option (Output × FileTree)
  registry : FileTree → Registry
  /-- The files after a sleep. -/
  elapse : Machine → FileTree
  power : Power
  freshKey : Machine → Vector UInt8 keyLength
  /-- Whether a directory lies on a file system that cannot be written to. -/
  isSealed : String → Bool
  /-- The reads of a file that do not bring all that is asked for. -/
  deliveries : String → List Delivery
  /-- The path of the running program. -/
  program : String
  /-- How many looks for removed media are followed before a run counts as unfinished. -/
  patience : Nat

/-- A step that works on a machine and may fail. A failure keeps what was done before it. -/
abbrev Action (α : Type) := ExceptT Failure (StateM Machine) α

end Groundwork
