import Groundwork.Text
/-!
Globally unique identifiers of partitions: 32 hexadecimal digits, written in five groups.
-/
namespace Groundwork

structure Guid where
  digits : List (Fin 16)
  length_eq : digits.length = 32
  deriving DecidableEq

namespace Guid

def hexDigit? (c : Char) : Option (Fin 16) :=
  if '0' ≤ c ∧ c ≤ '9' then some (Fin.ofNat 16 (c.toNat - '0'.toNat))
  else if 'a' ≤ c ∧ c ≤ 'f' then some (Fin.ofNat 16 (c.toNat - 'a'.toNat + 10))
  else if 'A' ≤ c ∧ c ≤ 'F' then some (Fin.ofNat 16 (c.toNat - 'A'.toNat + 10))
  else none

def hexChar (d : Fin 16) : Char := "0123456789abcdef".toList.getD d.val '0'

def ofDigits? (cs : List Char) : Option Guid :=
  match cs.mapM hexDigit? with
  | none => none
  | some digits => if h : digits.length = 32 then some ⟨digits, h⟩ else none

/-- Digits in groups of 8, 4, 4, 4 and 12 with hyphens between them. -/
def ofHyphenated? (cs : List Char) : Option Guid :=
  match Text.split '-' cs with
  | [a, b, c, d, e] =>
    if [a, b, c, d, e].map List.length = [8, 4, 4, 4, 12] then ofDigits? (a ++ b ++ c ++ d ++ e)
    else none
  | _ => none

/-- Digits alone, hyphenated, hyphenated in braces, or hyphenated after a URN scheme. -/
def parse? (s : String) : Option Guid :=
  let cs := s.toList
  match cs with
  | '\x7b' :: rest =>
    match rest.reverse with
    | '\x7d' :: body => ofHyphenated? body.reverse
    | _ => none
  | _ =>
    match (Text.after? "urn:uuid:".toList cs).or (Text.after? "URN:UUID:".toList cs) with
    | some body => ofHyphenated? body
    | none => (ofDigits? cs).or (ofHyphenated? cs)

def text (g : Guid) : String :=
  let cs := g.digits.map hexChar
  let part (start len : Nat) := String.ofList ((cs.drop start).take len)
  String.intercalate "-" [part 0 8, part 8 4, part 12 4, part 16 4, part 20 12]

end Guid

end Groundwork
