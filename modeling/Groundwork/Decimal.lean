import Groundwork.Text
/-!
Whole numbers and amounts in decimal notation.
-/
namespace Groundwork.Decimal

def isDigit (c : Char) : Bool := '0' ≤ c && c ≤ '9'

def value (digits : List Char) : Nat := digits.foldl (fun n c => n * 10 + (c.toNat - 48)) 0

/-- Reads a number of at most `bits` bits: digits, perhaps after a plus sign. -/
def unsigned? (bits : Nat) (cs : List Char) : Option Nat :=
  let digits := match cs with
    | '+' :: rest => rest
    | cs => cs
  if digits.isEmpty || !digits.all isDigit then none
  else if value digits < Nat.pow 2 bits then some (value digits) else none

/-- Writes `n` units of `10 ^ -places`. -/
def fixed (places n : Nat) : String :=
  let fraction := toString (n % Nat.pow 10 places)
  toString (n / Nat.pow 10 places) ++ "." ++
    String.ofList (List.replicate (places - fraction.length) '0') ++ fraction

/-- Rounds a quotient to the nearest whole number, a tie to the even neighbour. -/
def nearestEven (num den : Nat) : Nat :=
  let q := num / den
  let r := num % den
  if 2 * r < den then q else if den < 2 * r then q + 1 else if q % 2 = 0 then q else q + 1

/-- Rounds a quotient to the nearest whole number, a tie upwards. -/
def nearestUp (num den : Nat) : Nat := (2 * num + den) / (2 * den)

/-- Writes a length of time given in milliseconds, in seconds from one second on. -/
def duration (milliseconds : Nat) : String :=
  if milliseconds = 0 then "0ns"
  else if milliseconds < 1000 then toString milliseconds ++ "ms"
  else
    let part := milliseconds % 1000
    let fraction := String.ofList (List.replicate (3 - (toString part).length) '0') ++ toString part
    let shown := (fraction.toList.reverse.dropWhile (· == '0')).reverse
    toString (milliseconds / 1000) ++
      (if shown.isEmpty then "" else "." ++ String.ofList shown) ++ "s"

end Groundwork.Decimal
