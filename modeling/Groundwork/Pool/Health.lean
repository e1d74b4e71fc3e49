import Groundwork.Config
import Groundwork.Machine.Action
import Groundwork.Pool.Status
import Groundwork.Text.LowerCase
/-!
The health of all pools, as the pool tool reports it.
-/
namespace Groundwork.Pool

variable (env : Environment) (watch : PoolWatch)

def listing : Command := ⟨"zpool", ["list", "-H", "-o", "name"]⟩

def statusQuery (pool : String) : Command := ⟨"zpool", ["status", "-j", "--json-int", pool]⟩

/-- The listed pools that are watched, one on each line. -/
def namesIn (watch : PoolWatch) (listed : String) : List String :=
  ((Text.lines listed).map Text.trim).filter fun name => name ≠ "" && watch.wants name

def names : Action (List String) := do
  return namesIn watch (← Action.runChecked env listing).stdout

/-- What the report of a pool says about it. -/
def health (pool : String) : Action (Option Pool) := do
  let output ← Action.runChecked env (statusQuery pool)
  return (← Action.ofExcept (ofReport output.stdout)).find? (·.name = pool)

/-- The pool if its status can be read. -/
def check (pool : String) : Action (Option Pool) := do
  match ← Action.attempt (health env pool) with
  | .ok (some p) => return some p
  | .ok none =>
    Action.logWarning s!"zpool status did not report pool {pool}"
    return none
  | .error e =>
    Action.logWarning s!"Couldn't read status of pool {pool}: {e.message}"
    return none

/-- One report for each pool whose status can be read. -/
def poll : Action (List Pool) := do
  return (← (← names env watch).mapM (check env)).filterMap id

/-- The word for the scan and its progress, if a scan has ever run. -/
def scanLine (p : Pool) : Option (String × String) := do
  some (Text.lower (← p.scanFunction), ← p.scanProgress)

def summary (p : Pool) : String :=
  match p.scanLine with
  | some (function, progress) => s!"Pool {p.name} is {p.state}, {function} {progress}"
  | none => s!"Pool {p.name} is {p.state}"

/-- Polls once and logs the result. -/
def logHealth : Action Unit := do
  (← poll env watch).forM fun p => Action.logInfo p.summary

end Groundwork.Pool
