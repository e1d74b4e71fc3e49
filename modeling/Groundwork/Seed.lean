import Groundwork.Archive.Reader
import Groundwork.Archive.Writer
import Groundwork.Dict
import Groundwork.Failure
import Groundwork.Json.Value
/-!
Seeds: the operator's configuration documents, one file per seed, kept together in an archive.

A seed may be stored under any of three extensions; only the first of them is ever written.
-/
namespace Groundwork

namespace Seed

/-- The extensions of seed files, in the order in which they are looked up. -/
def extensions : List String := ["json", "yaml", "yml"]

def fileName (seed extension : String) : String := seed ++ "." ++ extension

/-- The seed and the extension of a file name, if it is one of a seed. -/
def splitName? (file : String) : Option (String × String) := do
  let (seed, extension) ← Text.cutLast '.' file.toList
  if seed.isEmpty || !extensions.contains (String.ofList extension) then none
  else some (String.ofList seed, String.ofList extension)

/-- A payload has to be a JSON object. -/
def validatePayload (seed : String) (payload : ByteArray) : Except Failure Unit :=
  match Json.Value.parse payload.toList with
  | .error e => .error (.invalidSeedPayload seed e.message)
  | .ok v => if v.isObject then .ok ()
    else .error (.invalidSeedPayload seed "expected a JSON object")

/-- A seed that is written anew has a name without separators and points. -/
def validateName (seed : String) : Except Failure Unit :=
  if seed = "" ∨ seed.toList.any (fun c => c = '/' || c = '.') then
    .error (.invalidSeedPayload seed "seed names must be non-empty and contain no '/' or '.'")
  else .ok ()

end Seed

/-- The files of a seed archive by name. -/
structure Bundle where
  files : Dict ByteArray

namespace Bundle

def empty : Bundle := ⟨.empty⟩

/-- Takes away every file of a seed. -/
def remove (b : Bundle) (seed : String) : Bundle :=
  ⟨Seed.extensions.foldl (fun files e => files.erase (Seed.fileName seed e)) b.files⟩

/-- Stores a payload in place of every earlier file of the seed. -/
def insert (b : Bundle) (seed : String) (payload : ByteArray) : Bundle :=
  ⟨(b.remove seed).files.insert (Seed.fileName seed "json") payload⟩

/-- The file of a seed with the first extension that there is. -/
def get? (b : Bundle) (seed : String) : Option (String × ByteArray) :=
  Seed.extensions.findSome? fun e =>
    (b.files.get? (Seed.fileName seed e)).map fun payload => (Seed.fileName seed e, payload)

def contains (b : Bundle) (seed : String) : Bool := (b.get? seed).isSome

def size (b : Bundle) : Nat := b.files.size

def isEmpty (b : Bundle) : Bool := b.files.entries.isEmpty

/-- Whether a seed has files that can be taken away. -/
def removes (b : Bundle) (seed : String) : Bool := (b.remove seed).size != b.size

/-- The seeds that have a file, in ascending order, each once. -/
def seedNames (b : Bundle) : List String :=
  (Dict.ofList ((b.files.keys.filterMap Seed.splitName?).map fun (seed, _) => (seed, ()))).keys

def ofMembers (ms : List Archive.Member) : Bundle :=
  ⟨Dict.ofList (ms.map fun m => (m.name, m.content))⟩

end Bundle

def Archive.Fault.failure : Archive.Fault → Failure
  | .broken reason => .system (.badArchive reason)
  | .truncated name read expected => .truncatedMember name read expected

namespace Bundle

/-- The bundle on a partition. What does not begin like an archive holds no seeds. -/
def ofBytes (partition : ByteArray) : Except Failure Bundle :=
  if Archive.hasMagic partition then
    ((Archive.members partition).map ofMembers).mapError Archive.Fault.failure
  else .ok empty

def toArchive (b : Bundle) : ByteArray × Option String := Archive.write b.files.entries

end Bundle

end Groundwork
