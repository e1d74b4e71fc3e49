import Groundwork.Json.Raw
import Groundwork.Decimal.Shortest
/-!
What a written number stands for, and how a number is written.

As many leading digits as fit into 64 bits make the significand. It is rounded to a floating-point
number first and then scaled by a rounded power of ten, so the result may differ in its last bit
from the number nearest to the written one.
-/
namespace Groundwork.Json

/-- Extends a 64-bit significand by digits as long as it fits; returns the digits left over. -/
def takeSignificand (n : Nat) : List UInt8 → Nat × List UInt8
  | [] => (n, [])
  | b :: rest =>
    let m := n * 10 + (b.toNat - 48)
    if m < Nat.pow 2 64 then takeSignificand m rest else (n, b :: rest)

/-- The greatest power of ten below the overflow limit is `10 ^ 308`. -/
def power (n : Nat) : Binary64 := Binary64.ofNat (Nat.pow 10 n)

/-- Scales a number by a power of ten, in steps of at most 308 when it gets smaller. -/
def scale : Nat → Binary64 → Int → Except Error Binary64
  | 0, x, _ => .ok x
  | fuel + 1, x, e =>
    if e.natAbs ≤ 308 then
      if 0 ≤ e then
        let y := x.mul (power e.natAbs)
        if y.isFinite then .ok y else .error .outOfRange
      else .ok (x.div (power e.natAbs))
    else if x.significand = 0 then .ok x
    else if 0 ≤ e then .error .outOfRange
    else scale fuel (x.div (power 308)) (e + 308)

/-- The exponent that a numeral writes, and none if it does not fit into 31 bits. -/
def writtenExponent (digits : List UInt8) : Option Nat :=
  let n := digits.foldl (fun n b => n * 10 + (b.toNat - 48)) 0
  if n < Nat.pow 2 31 then some n else none

namespace Numeral

/-- The number as a significand and a power of ten, digits beyond 64 bits cut off. -/
def parts (n : Numeral) : Nat × Int :=
  let (w, dropped) := takeSignificand 0 n.whole
  let (s, unread) := takeSignificand w n.fraction
  (s, (dropped.length : Int) - (n.fraction.length - unread.length : Nat))

def real (n : Numeral) : Except Error Number := do
  let (s, e) := n.parts
  let magnitude ← match n.exponent with
    | none => scale 8 (Binary64.ofNat s) e
    | some (negative, digits) =>
      match writtenExponent digits with
      | some x => scale 8 (Binary64.ofNat s) (if negative then e - x else e + x)
      | none => if s ≠ 0 ∧ !negative then .error .outOfRange else .ok (Binary64.ofNat 0)
  .ok (.real n.negative magnitude)

/-- Whole if it is written without fraction and exponent and fits into 64 bits; a negative zero is
not whole. -/
def number (n : Numeral) : Except Error Number :=
  let (w, dropped) := takeSignificand 0 n.whole
  if n.fraction.isEmpty && n.exponent.isNone && dropped.isEmpty then
    if !n.negative then .ok (.whole w)
    else if 0 < w ∧ w ≤ Nat.pow 2 63 then .ok (.whole (-(w : Int)))
    else n.real
  else n.real

end Numeral

/-- Positional notation from `10 ^ -5` up to below `10 ^ 16`, with at least one decimal; beyond that
an exponent with its sign. -/
def realText (x : Binary64) : String :=
  if x.significand = 0 then "0.0"
  else
    let s := Decimal.shortest x
    let digits := s.digits.map fun d => Char.ofNat (d + 48)
    let e := s.point - 1
    if -5 ≤ e ∧ e ≤ 15 then
      if e < 0 then
        "0." ++ String.ofList (List.replicate (-s.point).toNat '0' ++ digits)
      else
        let whole := digits.take s.point.toNat
        let padding := List.replicate (s.point.toNat - whole.length) '0'
        let fraction := digits.drop s.point.toNat
        String.ofList (whole ++ padding) ++ "." ++
          (if fraction.isEmpty then "0" else String.ofList fraction)
    else
      let lead := String.ofList (digits.take 1)
      let fraction := String.ofList (digits.drop 1)
      lead ++ (if fraction == "" then "" else "." ++ fraction) ++ "e" ++
        (if e < 0 then "-" else "+") ++ toString e.natAbs

def Number.text : Number → String
  | .whole n => toString n
  | .real negative x => (if negative then "-" else "") ++ realText x

end Groundwork.Json
