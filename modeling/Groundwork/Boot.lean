import Groundwork.Encryption
import Groundwork.Install
import Groundwork.Pool.Health
/-!
What the daemon does when the machine has started: an installation if the boot media asks for one,
and otherwise unlocking the drives and watching the pools.
-/
namespace Groundwork.Boot

variable (env : Environment) (config : Config)

/-- Unlocks every drive with a stored key. -/
def unlockDrives : Action Unit := do
  let unlocked ← Encryption.decryptDrives env config.paths
  Action.logInfo s!"{unlocked.length} encrypted drive(s) unlocked"

/-- Performs the installation that was asked for and lets the reboot come. -/
def install (options : InstallOptions) : Action Unit := do
  Action.logInfo "Install seed found, starting install"
  let _ ← Install.run env config options
  Action.settle env

/-- Reports the health of the pools so many times, whatever becomes of each report. -/
def watchPools : Nat → Action Unit
  | 0 => return
  | rounds + 1 => do
    match ← Action.attempt (Pool.logHealth env config.watch) with
    | .ok () => pure ()
    | .error e => Action.logWarning s!"Pool health check failed: {e.message}"
    Action.sleep env (config.watch.interval * 1000)
    watchPools rounds

/-- Serves a machine that is installed. The daemon reports once, or as long as it runs. -/
def serve (once : Bool) : Action Unit := do
  unlockDrives env config
  if once then Pool.logHealth env config.watch else watchPools env config env.patience

end Groundwork.Boot
