import Groundwork.Machine
/-!
Scripted environments: the tools answer from a list of canned answers, and the files change when a
tool is run or when a number of sleeps has gone by.
-/
namespace Groundwork

/-- A change of the files from outside. -/
inductive Change
  | put (path : String) (node : Node)
  | remove (path : String)

def Change.apply (t : FileTree) : Change → FileTree
  | .put path node => t.plant path node
  | .remove path => t.prune path

/-- The commands of one program that begin with given arguments. -/
structure CommandPattern where
  program : String
  arguments : List String
  deriving DecidableEq

def CommandPattern.fits (p : CommandPattern) (c : Command) : Bool :=
  p.program == c.program && p.arguments.isPrefixOf c.arguments

structure Script where
  /-- The canned answers; the first that fits is given. -/
  answers : List (CommandPattern × Output) := []
  /-- What commands do to the files, before they answer. -/
  effects : List (CommandPattern × Change) := []
  /-- Programs that are not installed. -/
  missing : List String := []
  /-- Changes that come with the sleep of a number. -/
  later : Option (Nat × List Change) := none
  registry : FileTree → Registry
  power : Power := .noted false

namespace Script

/-- The answer to a command. Without a canned one a tool succeeds silently. -/
def answer (s : Script) (c : Command) : Output :=
  match s.answers.find? (·.1.fits c) with
  | some (_, output) => output
  | none => .silent

def effectsOf (s : Script) (c : Command) : List Change :=
  (s.effects.filter (·.1.fits c)).map (·.2)

def tool (s : Script) (m : Machine) (c : Command) : Option (Output × FileTree) :=
  if s.missing.contains c.program then none
  else some (s.answer c, (s.effectsOf c).foldl Change.apply m.files)

def sleepCount (m : Machine) : Nat :=
  m.history.countP fun
    | .slept _ => true
    | _ => false

def elapse (s : Script) (m : Machine) : FileTree :=
  match s.later with
  | some (count, changes) =>
    if sleepCount m = max count 1 then changes.foldl Change.apply m.files else m.files
  | none => m.files

/-- The bytes with which every scripted key begins. -/
def keyMark : List UInt8 := List.replicate 24 0xC5

/-- The scripted key of a number. -/
def key (n : Nat) : Vector UInt8 keyLength :=
  Vector.ofFn fun i =>
    if i.val < 24 then 0xC5 else (n / Nat.pow 256 (i.val - 24) % 256).toUInt8

/-- Whether bytes are a scripted key. -/
def isKey (bytes : ByteArray) : Bool :=
  bytes.size == keyLength && keyMark.isPrefixOf bytes.toList

/-- How many looks for removed media a scripted run takes. -/
def patience : Nat := 10000

/-- Every key of a scripted environment is a new one. -/
def environment (s : Script) (program : String) : Environment where
  tool := s.tool
  registry := s.registry
  elapse := s.elapse
  power := s.power
  freshKey m := key m.history.length
  isSealed _ := false
  deliveries _ := []
  program
  patience

end Script

end Groundwork
