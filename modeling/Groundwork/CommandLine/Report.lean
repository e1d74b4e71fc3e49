import Groundwork.Failure
import Groundwork.Text
/-!
How a program ends that has failed: what went wrong, and below it what caused it.
-/
namespace Groundwork

structure Report where
  message : String
  /-- The nearest cause first. -/
  causes : List String := []
  deriving DecidableEq, Repr

namespace Report

def ofFailure (f : Failure) : Report := ⟨f.message, f.causes⟩

/-- An error of the system that no operation was the reason for. -/
def ofSystemError (e : SystemError) : Report := ⟨e.message, []⟩

/-- What a report becomes when it is told what was being done. -/
def within (context : String) (r : Report) : Report := ⟨context, r.message :: r.causes⟩

/-- A cause with its number, if there are several; further lines stand below the first one. -/
def causeText (number : Option Nat) (cause : String) : String :=
  let (opening, below) := match number with
    | some n =>
      let shown := toString n
      (String.ofList (List.replicate (5 - shown.length) ' ') ++ shown ++ ": ", "       ")
    | none => ("    ", "    ")
  let lines := (Text.split '\n' cause.toList).map String.ofList
  opening ++ String.intercalate ("\n" ++ below) lines

def causeTexts : List String → List String
  | [] => []
  | [cause] => [causeText none cause]
  | causes => causes.mapIdx fun n cause => causeText (some n) cause

def text (r : Report) : String :=
  let causes := causeTexts r.causes
  let below := if causes.isEmpty then [] else "" :: "Caused by:" :: causes
  String.intercalate "\n" (s!"Error: {r.message}" :: below)

end Report

end Groundwork
