import Groundwork.Registry
import Groundwork.FileTree
/-!
Where a registry's answers come from: tables, or a directory of a file tree.
-/
namespace Groundwork

/-- A registry listed part by part. Of several rows for one path the last counts. -/
structure RegistryTable where
  anchors : List (String × DeviceNumber)
  entries : List String
  attributes : List (String × String)
  /-- Directories with one of their names each. -/
  members : List (String × String)
  links : List (String × String)

/-- The names of a list in ascending order, each once. -/
def distinctNames (names : List String) : List String :=
  (names.mergeSort (· ≤ ·)).foldr (fun n rest => if rest.head? = some n then rest else n :: rest) []

namespace RegistryTable

def anchor? (t : RegistryTable) (path : String) : Except SystemError DeviceNumber :=
  match t.anchors.reverse.find? fun e => Path.same e.1 path with
  | some e => .ok e.2
  | none => .error (.noAttribute path)

def row (rows : List (String × String)) (path : String) : Except SystemError String :=
  match rows.reverse.lookup path with
  | some value => .ok value
  | none => .error (.noAttribute path)

def registry (t : RegistryTable) : Registry where
  deviceNumber := t.anchor?
  entries := .ok (distinctNames t.entries)
  read := row t.attributes
  has path := t.entries.contains path || (t.attributes.lookup path).isSome ||
    (t.members.lookup path).isSome || (t.links.lookup path).isSome
  list path :=
    if (t.members.lookup path).isNone then .error (.noAttribute path)
    else .ok (distinctNames (t.members.filterMap fun e => if e.1 = path then some e.2 else none))
  link := row t.links

end RegistryTable

/-- The registry that is a directory of the tree. -/
def FileTree.registry (t : FileTree) (root : String)
    (deviceNumber : String → Except SystemError DeviceNumber) : Registry where
  deviceNumber
  entries := t.list root
  read path := t.readText (Path.join root path)
  has path := t.has (Path.join root path)
  list path := t.list (Path.join root path)
  link path := t.readLink (Path.join root path)

end Groundwork
