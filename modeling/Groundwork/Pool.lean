import Groundwork.Binary64
import Groundwork.Failure
import Groundwork.Text
/-!
Storage pools and how far a scan of one has come.
-/
namespace Groundwork

inductive ScanState
  | none
  | scanning
  | finished
  | canceled
  deriving DecidableEq, Repr

namespace ScanState

/-- The words for the states, in any mixture of cases. -/
def parse (s : String) : Except Failure ScanState :=
  match Text.upperAscii s with
  | "NONE" => .ok .none
  | "SCANNING" => .ok .scanning
  | "FINISHED" => .ok .finished
  | "CANCELED" => .ok .canceled
  | other => .error (.invalidInput s!"Unknown scan state '{other}'")

def text : ScanState → String
  | .none => "none"
  | .scanning => "scanning"
  | .finished => "finished"
  | .canceled => "canceled"

end ScanState

/-- The counters of a scan are 64-bit numbers. -/
structure ScanStats where
  state : ScanState
  examined : Nat
  toExamine : Nat
  deriving DecidableEq, Repr

namespace ScanStats

/-- The greatest percentage that a scan can show before it has finished, 99.99. -/
def mostUnfinished : Binary64 := Binary64.nearest 9999 100

/-- The examined share in percent, rounded to hundredths, in floating-point numbers. -/
def share (examined toExamine : Nat) : Binary64 :=
  let hundred := Binary64.ofNat 100
  let percent := ((Binary64.ofNat examined).div (Binary64.ofNat toExamine)).mul hundred
  ((percent.mul hundred).round.div hundred).min mostUnfinished

def progress (s : ScanStats) : String :=
  if s.state = .finished then "100.00%"
  else if s.toExamine = 0 then "0.00%"
  else Decimal.fixed 2 ((share s.examined s.toExamine).toPlaces 2) ++ "%"

end ScanStats

structure Pool where
  name : String
  state : String
  /-- What the last scan was for. -/
  scanFunction : Option String
  scan : Option ScanStats
  deriving DecidableEq, Repr

def Pool.scanProgress (p : Pool) : Option String := p.scan.map ScanStats.progress

end Groundwork
