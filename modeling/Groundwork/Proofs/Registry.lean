import Groundwork.Proofs.Failure

/-! The registry of block devices. What it is asked changes nothing, and fails without a mark. -/
namespace Groundwork.Registry

variable {α : Type}

theorem unmarked_ask (answer : Except SystemError α) : FailsOnly Unmarked (ask answer) :=
  unmarked_system

theorem unmarked_findEntry (r : Registry) (n : DeviceNumber) :
    FailsOnly Unmarked (r.findEntry n) := by
  refine (unmarked_ask _).bind fun entries => ?_
  split
  · exact .ok _
  · exact .error rfl

theorem unmarked_baseOf (r : Registry) (entry : String) :
    FailsOnly Unmarked (r.baseOf entry) := by
  unfold baseOf
  split
  · exact (unmarked_ask _).bind fun _ => .ok _
  · refine (unmarked_ask _).bind fun slaves => ?_
    split
    · exact .ok _
    · refine (unmarked_ask _).bind fun link => ?_
      split
      · exact .error rfl
      · split
        · exact .ok _
        · exact .ok _

/-- Induction on the number of mapped devices that may follow. -/
theorem unmarked_diskOf (r : Registry) (layers : Nat) (entry : String) :
    FailsOnly Unmarked (r.diskOf layers entry) := by
  induction layers generalizing entry with
  | zero =>
    rw [diskOf]
    refine (r.unmarked_baseOf entry).bind fun base => ?_
    cases base with
    | disk name => exact .ok name
    | mapped slave => exact .error rfl
  | succ layers ih =>
    rw [diskOf]
    refine (r.unmarked_baseOf entry).bind fun base => ?_
    cases base with
    | disk name => exact .ok name
    | mapped slave => exact ih slave

theorem unmarked_underlyingDevice (r : Registry) (anchor deviceRoot : String) :
    FailsOnly Unmarked (r.underlyingDevice anchor deviceRoot) :=
  (unmarked_ask _).bind fun n => (r.unmarked_findEntry n).bind fun entry =>
    (r.unmarked_diskOf mappedLayers entry).bind fun _ => .ok _

/-- The registry of a machine with one disk. -/
def sample : Registry where
  deviceNumber _ := .ok ⟨8, 2⟩
  entries := .ok ["vda"]
  read _ := .ok "8:2"
  has _ := false
  list _ := .ok []
  link _ := .error .missing

theorem underlyingDevice_sample :
    sample.underlyingDevice "/usr/bin/strata" "/dev" = .ok "/dev/vda" :=
  Action.eq_ok_of_toOption (by decide +kernel)

end Groundwork.Registry
