import Groundwork.Binary64
/-!
The shortest decimal that reads back as a given floating-point number: of all decimals nearer to it
than to any other such number, one with the fewest digits, and of those the nearest.
-/
namespace Groundwork.Decimal

/-- The number `0.d₁d₂… * 10 ^ point` of the digits `d₁d₂…`. -/
structure Scientific where
  digits : List Nat
  point : Int
  deriving DecidableEq, Repr

/-- Four times the bounds of the numbers that round to `x`, in units of its last place. -/
def bounds (x : Binary64) : Nat × Nat :=
  let m := x.significand
  let narrow := m = Nat.pow 2 52 ∧ Binary64.leastExponent < x.exponent
  (if narrow then 4 * m - 1 else 4 * m - 2, 4 * m + 2)

/-- Whether the decimal `n * 10 ^ e` reads back as `x`. The ends of the interval round to `x` when
its significand is even. -/
def readsBack (x : Binary64) (n : Nat) (e : Int) : Bool :=
  let scaled := 4 * n * Nat.pow 10 e.toNat * Nat.pow 2 (-x.exponent).toNat
  let unit := Nat.pow 10 (-e).toNat * Nat.pow 2 x.exponent.toNat
  let (low, high) := bounds x
  if x.significand % 2 = 0 then low * unit ≤ scaled && scaled ≤ high * unit
  else low * unit < scaled && scaled < high * unit

/-- The decimal exponent of the leading digit of a positive number. -/
def leadingDigit (x : Binary64) : Int :=
  let rec search (fuel : Nat) (e : Int) : Int :=
    match fuel with
    | 0 => e
    | fuel + 1 =>
      if x.num * Nat.pow 10 (-e).toNat < x.den * Nat.pow 10 e.toNat then search fuel (e - 1)
      else e
  search 640 309

/-- The neighbour of `x` on the grid of multiples of `10 ^ e` that reads back and is nearest. -/
def onGrid? (x : Binary64) (e : Int) : Option Nat :=
  let num := x.num * Nat.pow 10 (-e).toNat
  let den := x.den * Nat.pow 10 e.toNat
  let low := num / den
  match readsBack x low e, readsBack x (low + 1) e with
  | true, true =>
    let r := num % den
    some (if 2 * r < den then low else if den < 2 * r then low + 1
      else if low % 2 = 0 then low else low + 1)
  | true, false => some low
  | false, true => some (low + 1)
  | false, false => none

def digitsOf (n : Nat) : List Nat := (Nat.toDigits 10 n).map (·.toNat - 48)

/-- Digits without the zeros at the end, with the place of the point. -/
def scientific (n : Nat) (e : Int) : Scientific :=
  let ds := digitsOf n
  ⟨(ds.reverse.dropWhile (· == 0)).reverse, e + ds.length⟩

/-- Tries grids of 1, 2, … digits; seventeen always suffice. -/
def shortest (x : Binary64) : Scientific :=
  let top := leadingDigit x
  match (List.range 17).findSome? fun (k : Nat) =>
      let e := top - k
      (onGrid? x e).map fun n => scientific n e with
  | some s => s
  | none =>
    let e := top - 17
    scientific (x.num * Nat.pow 10 (-e).toNat / (x.den * Nat.pow 10 e.toNat)) e

end Groundwork.Decimal
