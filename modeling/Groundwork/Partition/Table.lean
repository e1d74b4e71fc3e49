import Groundwork.Disk
import Groundwork.Machine.Action
import Groundwork.Partition
/-!
Partition tables, read and changed by the partitioning tool.
-/
namespace Groundwork

/-- What the check of a partition table found. -/
inductive TableState
  | absent
  | present
  /-- The main header is gone and its backup is intact. -/
  | damaged
  deriving DecidableEq, Repr

namespace PartitionTable

variable (env : Environment)

def tool (arguments : List String) : Command := ⟨"sgdisk", arguments⟩

def noTableMark : String := "Creating new GPT entries in memory"

def damageMark : String :=
  "Caution: invalid main GPT header, but valid backup; regenerating main header"

def checkCommand (disk : String) : Command := tool ["-v", disk]

def stateOf (disk : String) (o : Output) : Except Failure TableState :=
  if o.success then .ok (if o.mentions noTableMark then .absent else .present)
  else if o.mentions damageMark then .ok .damaged
  else .error (Action.commandFailure (checkCommand disk) o)

def check (disk : String) : Action TableState := do
  Action.ofExcept (stateOf disk (← Action.run env (checkCommand disk)))

/-! ### Entries -/

/-- The value on the first line that starts with a label. -/
def field? (listing label : String) : Option (List Char) :=
  ((Text.lines listing).findSome? fun line =>
    Text.after? label.toList (Text.trimChars line.toList)).map Text.trimChars

/-- What stands between the first opening and the last closing parenthesis. -/
def parenthesized? (value : List Char) : Option (List Char) := do
  let (_, inner) ← Text.cutFirst '(' value
  let (inner, _) ← Text.cutLast ')' inner
  some inner

def dropQuotes (cs : List Char) : List Char :=
  ((cs.dropWhile (· = '\'')).reverse.dropWhile (· = '\'')).reverse

/-- The entry that a listing of the tool describes. -/
def entryOf (index : Nat) (listing : String) : Except Failure Partition := do
  let require (what : String) (value : Option (List Char)) : Except Failure (List Char) :=
    match value with
    | some cs => .ok cs
    | none => .error (.invalidInput s!"sgdisk output for partition {index} has no {what}")
  let typeName ← require "type" ((field? listing "Partition GUID code:").bind parenthesized?)
  let guidText := String.ofList
    (← require "unique GUID" (field? listing "Partition unique GUID:"))
  let guid ← match Guid.parse? guidText with
    | some guid => .ok guid
    | none => .error (.invalidInput s!"Bad partition GUID '{guidText}': malformed")
  let name ← require "name" (field? listing "Partition name:")
  let size ← require "size" ((field? listing "Partition size:").bind parenthesized?)
  return {
    index, guid
    typeName := String.ofList typeName
    name := String.ofList (dropQuotes name)
    size := String.ofList (size.filter fun c => !Text.isBlank c) }

def infoCommand (disk : String) (index : Nat) : Command := tool ["-i", toString index, disk]

/-- The tool does not fail for a partition that is not there. -/
def noPartitionMark : String := "does not exist"

/-- An entry of a disk's table. -/
def info (disk : String) (index : Nat) : Action Partition := do
  let c := infoCommand disk index
  let output ← Action.runChecked env c
  if output.mentions noPartitionMark then throw (Action.commandFailure c output)
  else Action.ofExcept (entryOf index output.stdout)

def createCommand (disk : String) (p : Partition) (code : String) : Command :=
  tool ["-n", s!"{p.index}::+{p.size}", "-u", s!"{p.index}:{p.guid.text}",
    "-t", s!"{p.index}:{code}", "-c", s!"{p.index}:{p.name}", disk]

/-- Makes an entry with the same size, identifier and name. Its type has to be a known one. -/
def create (disk : String) (p : Partition) : Action Unit := do
  match p.typeCode? with
  | none => throw (.invalidInput
      s!"Unrecognized partition type '{p.typeName}' for partition {p.index}")
  | some code =>
    Action.logInfo s!"Creating partition {p.index} ({p.typeName}) on {disk}"
    let _ ← Action.runChecked env (createCommand disk p code)

def deleteCommand (disk : String) (index : Nat) : Command := tool ["-d", toString index, disk]

def delete (disk : String) (index : Nat) : Action Unit := do
  Action.logInfo s!"Deleting partition {index} on {disk}"
  let _ ← Action.runChecked env (deleteCommand disk index)

def zapCommand (disk : String) : Command := tool ["-Z", disk]

/-- Destroys both copies of the table. The tool complains whenever they disagree, so its exit code
says nothing. -/
def zap (disk : String) : Action Unit := do
  Action.logInfo s!"Zapping partition table on {disk}"
  let _ ← Action.run env (zapCommand disk)

end PartitionTable

end Groundwork
