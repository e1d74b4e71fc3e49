import Groundwork.Text.CaseTable
/-!
Texts in lower case. A capital sigma at the end of a word has a lower case of its own.
-/
namespace Groundwork.Text

def isWithin (ranges : List (Nat × Nat)) (c : Char) : Bool :=
  ranges.any fun (first, last) => first ≤ c.toNat && c.toNat ≤ last

def isCased (c : Char) : Bool := isWithin casedRanges c

def isCaseIgnorable (c : Char) : Bool := isWithin caseIgnorableRanges c

/-- The lower case of a single character. -/
def lowerChar (c : Char) : List Char :=
  if c.toNat = 0x130 then ['i', Char.ofNat 0x307]
  else
    let run? := lowerRuns.find? fun (first, last, step, _) =>
      first ≤ c.toNat && c.toNat ≤ last && (c.toNat - first) % step == 0
    match run? with
    | some (_, _, _, distance) => [Char.ofNat ((c.toNat : Int) + distance).toNat]
    | none => [c]

/-- Whether the next character that counts is a letter with a case. -/
def continuesWord (cs : List Char) : Bool :=
  (cs.dropWhile isCaseIgnorable).head?.any isCased

/-- The second argument holds the characters before, the nearest first. -/
def lowerChars : List Char → List Char → List Char
  | [], _ => []
  | c :: rest, before =>
    let lower :=
      if c.toNat = 0x3A3 then
        if continuesWord before && !continuesWord rest then [Char.ofNat 0x3C2]
        else [Char.ofNat 0x3C3]
      else lowerChar c
    lower ++ lowerChars rest (c :: before)

def lower (s : String) : String := String.ofList (lowerChars s.toList [])

end Groundwork.Text
