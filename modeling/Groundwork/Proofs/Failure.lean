import Groundwork.Proofs.Action
import Groundwork.Seed.Partition

/-! Which failures a step can have. What only looks at the machine fails without a mark. -/
namespace Groundwork

variable {α β : Type} {P : Failure → Prop} {l : List α}

/-- Whether all failures of a result have a property. -/
def FailsOnly (P : Failure → Prop) (r : Except Failure α) : Prop := ∀ e, r = .error e → P e

/-- Whether a failure has no mark. -/
def Unmarked (e : Failure) : Prop := e.isUntouched = true

/-- Whether a failure has a mark. -/
def Marked (e : Failure) : Prop := e.isUntouched = false

namespace FailsOnly

theorem ok (x : α) : FailsOnly P (.ok x) := by
  intro e he
  cases he

theorem error {e : Failure} (h : P e) : FailsOnly P (.error e : Except Failure α) := by
  intro e' he
  cases he
  exact h

theorem bind {r : Except Failure α} {f : α → Except Failure β} (hr : FailsOnly P r)
    (hf : ∀ x, FailsOnly P (f x)) : FailsOnly P (r >>= f) := by
  cases r with
  | error e => exact error (hr e rfl)
  | ok x => exact hf x

theorem map {r : Except Failure α} (hr : FailsOnly P r) (f : α → β) : FailsOnly P (r.map f) := by
  cases r with
  | error e => exact error (hr e rfl)
  | ok x => exact ok (f x)

theorem mapError {ε : Type} (r : Except ε α) {f : ε → Failure} (hf : ∀ e, P (f e)) :
    FailsOnly P (r.mapError f) := by
  cases r with
  | error e => exact error (hf e)
  | ok x => exact ok x

theorem forM {f : α → Except Failure PUnit} (hf : ∀ x ∈ l, FailsOnly P (f x)) :
    FailsOnly P (l.forM f) := by
  induction l with
  | nil => exact ok _
  | cons x l ih => exact (hf x List.mem_cons_self).bind fun _ => ih fun y hy => hf y (.tail _ hy)

end FailsOnly

/-- Whether all failures of a step have a property, on every machine. -/
def Action.FailsOnly (P : Failure → Prop) (a : Action α) : Prop :=
  ∀ m, Groundwork.FailsOnly P (a.perform m).1

namespace Action.FailsOnly

theorem pure (x : α) : FailsOnly P (pure x : Action α) := fun _ => .ok x

theorem throw {e : Failure} (h : P e) : FailsOnly P (throw e : Action α) := fun _ => .error h

theorem note (v : Event) : FailsOnly P (note v) := fun _ => .ok ()

theorem modify (f : Machine → Machine) : FailsOnly P (modify f : Action PUnit) := fun _ => .ok _

theorem ofExcept {r : Except Failure α} (h : Groundwork.FailsOnly P r) :
    FailsOnly P (ofExcept r) := fun _ => h

theorem bind {a : Action α} {f : α → Action β} (ha : FailsOnly P a) (hf : ∀ x, FailsOnly P (f x)) :
    FailsOnly P (a >>= f) := by
  intro m
  rw [perform_bind]
  have hm := ha m
  cases hp : a.perform m with
  | mk r m' =>
    rw [hp] at hm
    cases r with
    | error e => exact .error (hm e rfl)
    | ok x => exact hf x m'

theorem forM {f : α → Action PUnit} (hf : ∀ x ∈ l, FailsOnly P (f x)) :
    FailsOnly P (l.forM f) := by
  induction l with
  | nil => exact pure _
  | cons x l ih => exact (hf x List.mem_cons_self).bind fun _ => ih fun y hy => hf y (.tail _ hy)

theorem marking (step : String) (a : Action α) : FailsOnly Marked (marking step a) :=
  fun m => .mapError (a.perform m).1 fun e => Failure.isUntouched_mark step e

end Action.FailsOnly

/-- A failure of a tool or of the files, whatever was asked for. -/
inductive Failure.Mechanical : Failure → Prop
  | missing (program : String) : Mechanical (.toolNotFound program)
  | failed (command : String) (status : Option Int) (diagnostic : String) :
      Mechanical (.commandFailed command status diagnostic)
  | system (cause : SystemError) : Mechanical (.system cause)

theorem Failure.Mechanical.unmarked {e : Failure} (h : e.Mechanical) : Unmarked e := by
  cases h <;> rfl

namespace Action

theorem mechanical_run (env : Environment) (c : Command) :
    FailsOnly Failure.Mechanical (run env c) := by
  intro m
  rw [perform_run]
  cases env.tool m c with
  | none => exact .error (.missing _)
  | some r => exact .ok _

theorem mechanical_runChecked (env : Environment) (c : Command) :
    FailsOnly Failure.Mechanical (runChecked env c) := by
  refine (mechanical_run env c).bind fun o => ?_
  split
  · exact .pure o
  · exact .throw (.failed _ _ _)

theorem mechanical_consult (f : FileTree → Except SystemError α) :
    FailsOnly Failure.Mechanical (consult f) := fun m => .mapError (f m.files) .system

theorem mechanical_makePath (path : String) : FailsOnly Failure.Mechanical (makePath path) :=
  fun m => .mapError (m.files.makePath path).2 .system

theorem mechanical_alter (path : String) (f : FileTree → Except SystemError FileTree) :
    FailsOnly Failure.Mechanical (alter path f) :=
  (mechanical_consult f).bind fun _ => .bind (.modify _) fun _ => .note _

theorem FailsOnly.unmarked {a : Action α} (h : FailsOnly Failure.Mechanical a) :
    FailsOnly Unmarked a := fun m e he => (h m e he).unmarked

end Action

theorem unmarked_system {r : Except SystemError α} :
    FailsOnly Unmarked (r.mapError Failure.system) := .mapError r fun _ => rfl

namespace Bundle

theorem unmarked_ofBytes (bytes : ByteArray) : FailsOnly Unmarked (ofBytes bytes) := by
  unfold ofBytes
  split
  · refine .mapError _ fun fault => ?_
    cases fault <;> rfl
  · exact .ok _

theorem unmarked_onPartition (t : FileTree) (partition : String) :
    FailsOnly Unmarked (onPartition t partition) :=
  unmarked_system.bind unmarked_ofBytes

end Bundle

end Groundwork
