import Groundwork.SystemError
/-!
Why an operation of the storage lifecycle failed. A failure that came after a device was modified is
marked with the step in which it came; the first mark stays.
-/
namespace Groundwork

inductive Failure
  | deviceNotFound (what : String)
  | ambiguousTarget (why : String)
  | noCandidate (why : String)
  | existingPartitionTable (device : String)
  | invalidDeviceId (device : String)
  | invalidKeyLength (length : Nat)
  | invalidSeedPayload (seed reason : String)
  | truncatedMember (name : String) (read expected : Nat)
  | commandFailed (command : String) (status : Option Int) (diagnostic : String)
  | incompleteCopy (path : String) (copied expected : Nat)
  | targetTooSmall (target : String) (minimum : Nat) (detected : String)
  | interrupted (step : String) (source : Failure)
  | toolNotFound (program : String)
  | invalidInput (what : String)
  | configuration (what : String)
  | system (error : SystemError)
  | serialization (reason : String)
  deriving DecidableEq, Repr

namespace Failure

def statusText : Option Int → String
  | some n => s!"Some({n})"
  | none => "None"

def message : Failure → String
  | deviceNotFound what => s!"Device not found: {what}"
  | ambiguousTarget why => s!"Ambiguous install target: {why}"
  | noCandidate why => s!"No install candidate: {why}"
  | existingPartitionTable device =>
    s!"A partition table already exists on device '{device}', and force install isn't set"
  | invalidDeviceId device =>
    s!"Invalid device id '{device}': must be a path under the stable-ID namespace"
  | invalidKeyLength length => s!"Expected a 32 byte raw encryption key, got {length} bytes"
  | invalidSeedPayload seed reason => s!"Invalid payload for seed '{seed}': {reason}"
  | truncatedMember name read expected =>
    s!"Only read {read} of {expected} bytes for seed file '{name}'"
  | commandFailed command status diagnostic =>
    "External command `" ++ command ++ "` failed (exit code " ++ statusText status ++ "): " ++
      diagnostic
  | incompleteCopy path copied expected =>
    s!"Incomplete copy of {path}: copied {copied} of {expected} bytes"
  | targetTooSmall target minimum detected =>
    s!"Target device {target} is smaller than the {minimum} byte minimum. " ++
      s!"Detected devices: {detected}"
  | interrupted step source => step ++ " failed after changes were made: " ++ source.message
  | toolNotFound program => s!"Tool not found: {program}"
  | invalidInput what => s!"Invalid input: {what}"
  | configuration what => s!"Configuration error: {what}"
  | system error => "IO error: " ++ error.message
  | serialization reason => s!"Serialization error: {reason}"

/-- Marks a failure that came after a device was modified. -/
def mark (step : String) : Failure → Failure
  | interrupted step source => interrupted step source
  | source => interrupted step source

/-- The failure underneath any mark. -/
def rootCause : Failure → Failure
  | interrupted _ source => source.rootCause
  | failure => failure

/-- Whether the failure came before any device was modified. -/
def isUntouched : Failure → Bool
  | interrupted .. => false
  | _ => true

/-- The texts of what caused the failure, the nearest first. -/
def causes : Failure → List String
  | interrupted _ source => source.message :: source.causes
  | system error => [error.message]
  | serialization reason => [reason]
  | _ => []

end Failure

end Groundwork
