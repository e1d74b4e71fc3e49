import Groundwork.Json.Decode
import Groundwork.Pool
/-!
Status reports of pools written as JSON documents.
-/
namespace Groundwork

open Json

def ScanState.ofRaw (r : Raw) : Except Error ScanState := do
  (ScanState.parse (← r.text)).mapError fun e => .badWord e.message

/-- The fields that are known of a scan. -/
def ScanStats.fields : List String := ["function", "state", "examined", "to_examine"]

namespace Pool

/-- How deep a value may be that stands in a scan: four levels are around it. -/
def scanDepth : Nat := depthLimit - 4

/-- A scan is an object whose other members have to be values too, though they do not count. -/
def scanOfRaw (r : Raw) : Except Error (Option String × ScanStats) := do
  let ms ← r.members
  let fs ← Fields.ofMembers ScanStats.fields ms
  let function ← fs.optional "function" Raw.text
  let _ ← (ms.filter fun m => m.1 ∉ ScanStats.fields).mapM fun m => Value.ofRaw scanDepth m.2
  let stats : ScanStats := {
    state := ← fs.required "state" ScanState.ofRaw
    examined := ← fs.required "examined" Raw.counter
    toExamine := ← fs.required "to_examine" Raw.counter }
  return (function, stats)

def ofRaw (r : Raw) : Except Error Pool := do
  let fs ← Fields.ofRaw ["name", "state", "scan_stats"] r
  let name ← fs.required "name" Raw.text
  let state ← fs.defaulting "state" "" Raw.text
  let scan ← fs.optional "scan_stats" scanOfRaw
  return ⟨name, state, scan.bind (·.1), scan.map (·.2)⟩

/-- The pools of a report by their keys. -/
def poolsOfRaw (r : Raw) : Except Error (Dict Pool) := do
  let fs ← Fields.ofRaw ["pools"] r
  fs.defaulting "pools" .empty (·.dictionary ofRaw)

/-- The pools of a report, in the order of their keys. -/
def reportOfRaw (r : Raw) : Except Error (List Pool) := do
  return (← poolsOfRaw r).entries.map (·.2)

def ofReport (text : String) : Except Failure (List Pool) :=
  ((Raw.ofText text).bind reportOfRaw).mapError fun e => .serialization e.message

end Pool

end Groundwork
