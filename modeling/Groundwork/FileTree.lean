import Groundwork.Path
import Groundwork.SystemError
/-!
A tree of files, directories and symbolic links, with the lookups and changes that a file system
offers and the errors with which it refuses them.
-/
namespace Groundwork

/-- A place in the tree: the names from the root down. -/
abbrev Location := List String

inductive Node
  | file (content : ByteArray) (mode : Nat)
  | directory
  | link (target : String)

def Node.isDirectory : Node → Bool
  | .directory => true
  | .file .. | .link _ => false

/-- What stands at each place. The root is a directory whether it is listed or not. -/
structure FileTree where
  nodes : List (Location × Node)
  /-- Where paths without a leading separator start. -/
  start : Location

namespace FileTree

variable {α : Type}

def empty : FileTree := ⟨[], []⟩

def node? (t : FileTree) (place : Location) : Option Node :=
  if place = [] then some .directory else t.nodes.lookup place

/-- Puts a node in the stead of the one that is found at a place, or behind all others. -/
def setNode (place : Location) (n : Node) : List (Location × Node) → List (Location × Node)
  | [] => [(place, n)]
  | e :: rest => if e.1 = place then (place, n) :: rest else e :: setNode place n rest

/-- Puts a node at a place, whatever was there. -/
def set (t : FileTree) (place : Location) (n : Node) : FileTree :=
  { t with nodes := setNode place n t.nodes }

/-- Takes away a place and all that lies below it. -/
def cut (t : FileTree) (place : Location) : FileTree :=
  { t with nodes := t.nodes.filter fun e => !place.isPrefixOf e.1 }

/-- The steps that a path names. A separator at the end asks for a directory, as a dot does. -/
def steps (path : String) : List String :=
  let ps := Path.pieces path
  ps.filter (· ≠ "") ++ if 1 < ps.length ∧ ps.getLast? = some "" then ["."] else []

/-- Where a walk ends, or the link that leads it elsewhere with the steps still to go. -/
inductive Walk
  | arrived (place : Location)
  | redirected (place : Location) (target : String) (rest : List String)

def longestName : Nat := 255

/-- Walks until the steps are done or a link has to be followed. The last place need not exist. -/
def walk (t : FileTree) (follow : Bool) : Location → List String → Except SystemError Walk
  | place, [] => .ok (.arrived place)
  | place, step :: rest =>
    if step = "." then walk t follow place rest
    else if step = ".." then walk t follow place.dropLast rest
    else if longestName < step.utf8ByteSize then .error .nameTooLong
    else
      let next := place ++ [step]
      match t.node? next with
      | none => if rest.isEmpty then .ok (.arrived next) else .error .missing
      | some .directory => walk t follow next rest
      | some (.file ..) => if rest.isEmpty then .ok (.arrived next) else .error .notDirectory
      | some (.link target) =>
        if rest.isEmpty && !follow then .ok (.arrived next)
        else .ok (.redirected place target rest)

/-- How many links one path may lead through. -/
def mostLinks : Nat := 40

/-- Where a path starts that is met at a place. -/
def origin (place : Location) (path : String) : Location :=
  if Path.isAbsolute path then [] else place

/-- Walks on through at most that many links. -/
def trace (t : FileTree) (follow : Bool) :
    Nat → Location → List String → Except SystemError Location
  | links, place, todo =>
    match walk t follow place todo with
    | .error e => .error e
    | .ok (.arrived place) => .ok place
    | .ok (.redirected place target rest) =>
      match links with
      | 0 => .error .linkLoop
      | links + 1 => trace t follow links (origin place target) (steps target ++ rest)

def longestPath : Nat := 4095

/-- The place a path leads to; whether a link in its last step is followed is the caller's choice.
That place itself need not exist. -/
def locate (t : FileTree) (path : String) (follow : Bool) : Except SystemError Location :=
  if path = "" then .error .missing
  else if path.toList.any (·.toNat = 0) then .error .nulInPath
  else if longestPath < path.utf8ByteSize then .error .nameTooLong
  else t.trace follow mostLinks (origin t.start path) (steps path)

/-- The place and what stands there. -/
def find (t : FileTree) (path : String) (follow : Bool) : Except SystemError (Location × Node) := do
  let place ← t.locate path follow
  match t.node? place with
  | some n => .ok (place, n)
  | none => .error .missing

/-- Whether a path leads to something. -/
def has (t : FileTree) (path : String) : Bool := (t.find path true).isOk

def isDirectory (t : FileTree) (path : String) : Bool :=
  match t.find path true with
  | .ok (_, .directory) => true
  | _ => false

def read (t : FileTree) (path : String) : Except SystemError ByteArray := do
  match ← t.find path true with
  | (_, .file content _) => .ok content
  | (_, .directory) => .error .directory
  | (_, .link _) => .error .linkLoop

def readText (t : FileTree) (path : String) : Except SystemError String := do
  match String.fromUTF8? (← t.read path) with
  | some s => .ok s
  | none => .error .notText

def readLink (t : FileTree) (path : String) : Except SystemError String := do
  match ← t.find path false with
  | (_, .link target) => .ok target
  | _ => .error .invalid

/-- The names directly below a place. -/
def below (t : FileTree) (place : Location) : List String :=
  t.nodes.filterMap fun e =>
    match e.1.getLast? with
    | some name => if e.1.dropLast = place then some name else none
    | none => none

/-- The names in a directory, in ascending order. -/
def list (t : FileTree) (path : String) : Except SystemError (List String) := do
  match ← t.find path true with
  | (place, .directory) => .ok ((t.below place).mergeSort (· ≤ ·))
  | _ => .error .notDirectory

/-- Whether something may be made at a place: its directory has to be there. -/
def newPlace (t : FileTree) (place : Location) : Except SystemError Location :=
  match t.node? place.dropLast with
  | some .directory => .ok place
  | some _ => .error .notDirectory
  | none => .error .missing

def defaultMode : Nat := 0o644

/-- Opens a file for writing that has to be there, and returns its place and its content. -/
def openExisting (t : FileTree) (path : String) :
    Except SystemError (Location × ByteArray × Nat) := do
  match ← t.find path true with
  | (place, .file content mode) => .ok (place, content, mode)
  | (_, .directory) => .error .directory
  | (_, .link _) => .error .linkLoop

/-- Makes a file empty, or makes a new empty file; what links lead to is what counts. -/
def create (t : FileTree) (path : String) : Except SystemError (Location × FileTree) := do
  let place ← t.locate path true
  match t.node? place with
  | some .directory => .error .directory
  | some (.file _ mode) => .ok (place, t.set place (.file .empty mode))
  | some (.link _) => .error .linkLoop
  | none => do
    let place ← t.newPlace place
    .ok (place, t.set place (.file .empty defaultMode))

/-- Gives the file at a place a new content. -/
def refill (t : FileTree) (place : Location) (content : ByteArray) : FileTree :=
  match t.node? place with
  | some (.file _ mode) => t.set place (.file content mode)
  | _ => t

def makeDirectory (t : FileTree) (path : String) : Except SystemError FileTree := do
  let place ← t.locate path false
  match t.node? place with
  | some _ => .error .alreadyThere
  | none => do
    let place ← t.newPlace place
    .ok (t.set place .directory)

/-- Makes a directory unless there is one. -/
def ensureDirectory (t : FileTree) (path : String) : FileTree × Except SystemError Unit :=
  match t.makeDirectory path with
  | .ok t => (t, .ok ())
  | .error e => (t, if t.isDirectory path then .ok () else .error e)

/-- Makes a directory and those above it that are missing. What has been made stays if that fails.
The first argument bounds how many. -/
def makeDirectories : Nat → FileTree → String → FileTree × Except SystemError Unit
  | 0, t, path => t.ensureDirectory path
  | depth + 1, t, path =>
    if path = "" then (t, .ok ())
    else
      match t.makeDirectory path, Path.parent? path with
      | .error e, some above =>
        if e.kind = .notFound then
          match makeDirectories depth t above with
          | (t, .ok ()) => t.ensureDirectory path
          | (t, .error e) => (t, .error e)
        else t.ensureDirectory path
      | _, _ => t.ensureDirectory path

def makePath (t : FileTree) (path : String) : FileTree × Except SystemError Unit :=
  makeDirectories (Path.components path).length t path

/-- Puts a finished file in the place of whatever file or link has the name. -/
def replace (t : FileTree) (path : String) (content : ByteArray) (mode : Nat) :
    Except SystemError FileTree := do
  let place ← t.locate path false
  match t.node? place with
  | some .directory => .error .directory
  | some _ => .ok (t.set place (.file content mode))
  | none => do
    let place ← t.newPlace place
    .ok (t.set place (.file content mode))

def unlink (t : FileTree) (path : String) : Except SystemError FileTree := do
  match ← t.find path false with
  | (_, .directory) => .error .directory
  | (place, _) => .ok (t.cut place)

/-- Whether a scratch file can be made in a directory. -/
def scratch (t : FileTree) (path : String) : Except SystemError Unit :=
  let path := if path = "" then "." else path
  match t.find path true with
  | .ok (_, .directory) => .ok ()
  | .ok _ => .error (.noScratchFile 20 path)
  | .error (.refused n) => .error (.noScratchFile n path)
  | .error e => .error e

/-- The tree with a directory and those above it, if they can be made. -/
def withPath (t : FileTree) (path : String) : FileTree :=
  match t.makePath path with
  | (t', .ok ()) => t'
  | (_, .error _) => t

/-- Puts a node where a path leads, with directories above it as needed. A directory that is there
already keeps what it holds. -/
def plant (t : FileTree) (path : String) (n : Node) : FileTree :=
  let t := ((Path.parent? path).map t.withPath).getD t
  match n, t.locate path false with
  | .directory, _ => t.withPath path
  | n, .ok place => if (t.node? place).any Node.isDirectory then t else t.set place n
  | _, .error _ => t

/-- Takes away what a path leads to; links are not followed in its last step. -/
def prune (t : FileTree) (path : String) : FileTree :=
  match t.locate path false with
  | .ok place => t.cut place
  | .error _ => t

end FileTree

end Groundwork
