import Groundwork.Decimal
/-!
Floating-point numbers with 53 significant bits, in exact whole-number arithmetic. A result is the
representable number nearest to the exact one, a tie going to the even significand.
-/
namespace Groundwork

/-- The number `significand * 2 ^ exponent`. -/
structure Binary64 where
  significand : Nat
  exponent : Int
  deriving DecidableEq, Repr, Inhabited

namespace Binary64

/-- The least exponent; numbers below `2 ^ -1022` have fewer significant bits. -/
def leastExponent : Int := -1074

def num (x : Binary64) : Nat := x.significand * Nat.pow 2 x.exponent.toNat

def den (x : Binary64) : Nat := Nat.pow 2 (-x.exponent).toNat

/-- The exponent of the leading bit of a positive quotient. -/
def leadingBit (num den : Nat) : Int :=
  let e : Int := (num.log2 : Int) - den.log2
  if num * Nat.pow 2 (-e).toNat < den * Nat.pow 2 e.toNat then e - 1 else e

/-- The representable number nearest to a quotient, without an upper limit. -/
def nearest (num den : Nat) : Binary64 :=
  if num = 0 then ⟨0, leastExponent⟩
  else
    let e := max (leadingBit num den - 52) leastExponent
    let m := Decimal.nearestEven (num * Nat.pow 2 (-e).toNat) (den * Nat.pow 2 e.toNat)
    if m = Nat.pow 2 53 then ⟨Nat.pow 2 52, e + 1⟩ else ⟨m, e⟩

/-- Whether the number is below `2 ^ 1024`, so that it has a finite form. -/
def isFinite (x : Binary64) : Bool := x.exponent ≤ 971

def ofNat (n : Nat) : Binary64 := nearest n 1

def mul (x y : Binary64) : Binary64 := nearest (x.num * y.num) (x.den * y.den)

def div (x y : Binary64) : Binary64 := nearest (x.num * y.den) (x.den * y.num)

/-- The nearest whole number, a half going up. -/
protected def round (x : Binary64) : Binary64 := ofNat (Decimal.nearestUp x.num x.den)

protected def min (x y : Binary64) : Binary64 := if x.num * y.den ≤ y.num * x.den then x else y

/-- The nearest multiple of `10 ^ -places`, a tie going to the even one, in units of that size. -/
def toPlaces (places : Nat) (x : Binary64) : Nat :=
  Decimal.nearestEven (x.num * Nat.pow 10 places) x.den

end Binary64

end Groundwork
