import Groundwork.Proofs.Records

/-! The end of a workflow, at which the disks are flushed and a reboot is armed, and the reboots that
come by themselves afterwards. -/
namespace Groundwork

variable {env : Environment} {P : Event → Prop} {m m' : Machine}

/-- Whether an event is not one of the end of a workflow. -/
def Event.IsOpen : Event → Prop
  | .synced | .rebooted => False
  | .told notice => notice ≠ .done
  | _ => True

theorem Event.isOpen_of_isWork {v : Event} (h : v.IsWork) : v.IsOpen := by
  cases v with
  | told => exact h
  | synced | rebooted => exact h
  | _ => trivial

/-- A machine on which a workflow has ended: the disks are flushed, and then a reboot is armed. -/
def Machine.closed (m : Machine) (delay : Nat) (told : List Event) : Machine where
  files := m.files
  history := m.history ++
    .synced :: .logged .info s!"Reboot scheduled in {Decimal.duration delay}" :: told
  armed := m.armed ++ [delay]

theorem Machine.record_closed (m : Machine) (delay : Nat) (v : Event) :
    (m.closed delay []).record v = m.closed delay [v] := by
  simp [closed, record]

theorem Install.perform_finish (delay : Nat) (m : Machine) :
    (Install.finish delay).perform m = (.ok delay, m.closed delay []) := by
  refine Prod.ext rfl ?_
  change Machine.mk _ _ _ = _
  simp [Machine.closed, Machine.record]

/-! ### The reboots that are armed -/

/-- Whether an event may follow a request for a reboot. -/
def Event.IsAftermath (env : Environment) : Event → Prop
  | .logged .. => True
  | .wrote path => env.power = .trigger path
  | _ => False

/-- The events of some armed reboots: each comes after a sleep of its delay. -/
inductive Comes (env : Environment) : List Nat → List Event → Prop
  | none : Comes env [] []
  | next {delay : Nat} {delays : List Nat} {after events : List Event}
    (hafter : ∀ v ∈ after, v.IsAftermath env) (rest : Comes env delays events) :
    Comes env (delay :: delays) (.slept delay :: .rebooted :: (after ++ events))

def Event.isReboot : Event → Bool
  | .rebooted => true
  | _ => false

theorem Event.not_isReboot_of_isAftermath {v : Event} (h : v.IsAftermath env) :
    ¬ v.isReboot = true := by
  cases v with
  | rebooted => exact h.elim
  | _ => exact Bool.false_ne_true

theorem Comes.countP_isReboot {delays : List Nat} {events : List Event}
    (h : Comes env delays events) : events.countP Event.isReboot = delays.length := by
  induction h with
  | none => rfl
  | @next delay delays after events hafter _ ih =>
    have hnone : after.countP Event.isReboot = 0 :=
      List.countP_eq_zero.2 fun v hv => Event.not_isReboot_of_isAftermath (hafter v hv)
    simp [List.countP_cons, hnone, ih, Event.isReboot]

/-- A machine after a sleep. -/
def Machine.rested (env : Environment) (m : Machine) (delay : Nat) : Machine :=
  { m.record (.slept delay) with files := env.elapse (m.record (.slept delay)) }

theorem records_reboot (m : Machine) : ∃ r m', (Action.reboot env).perform m = (r, m') ∧
    (m.record .rebooted).Records (Event.IsAftermath env) m' := by
  refine ⟨_, ((Action.reboot env).perform m).2, rfl, ?_⟩
  rw [Action.reboot, Action.perform_bind_of_ok _ (Action.perform_note .rebooted m)]
  split
  · split
    · exact Machine.Records.still (fun _ => rfl) _
    · exact Machine.Records.still (fun _ => rfl) _
  · next path hpower =>
    have htrigger : Action.Within (Machine.Records (Event.IsAftermath env))
        (Action.trigger path) :=
      .bind (Machine.Records.chains _) (Machine.Records.note trivial) fun _ =>
        Machine.Records.alter hpower
    exact htrigger _

/-- A reboot that comes by itself never fails: what keeps it from coming is only logged. -/
theorem fire_comes (delay : Nat) (m : Machine) : ∃ m' after,
    (Action.fire env delay).perform m = (.ok (), m') ∧
      m'.history = m.history ++ .slept delay :: .rebooted :: after ∧
      ∀ v ∈ after, v.IsAftermath env := by
  have hsleep : (Action.sleep env delay).perform m = (.ok (), m.rested env delay) := rfl
  obtain ⟨r, m₁, hreboot, hafter⟩ := @records_reboot env (m.rested env delay)
  have hattempt : (Action.attempt (Action.reboot env)).perform (m.rested env delay) =
      (.ok r, m₁) := by rw [Action.perform_attempt, hreboot]
  have hfire : ∃ m', (Action.fire env delay).perform m = (.ok (), m') ∧
      m₁.Records (Event.IsAftermath env) m' := by
    unfold Action.fire
    rw [Action.perform_bind_of_ok _ hsleep, Action.perform_bind_of_ok _ hattempt]
    split
    · exact ⟨_, rfl, .refl _ _⟩
    · exact ⟨_, rfl, .record trivial _⟩
    · exact ⟨_, rfl, .record trivial _⟩
  obtain ⟨m', hfire, hlogged⟩ := hfire
  obtain ⟨after, hevents, hall⟩ := (hafter.trans hlogged).history
  exact ⟨m', after, hfire, by simp [hevents, Machine.record, Machine.rested], hall⟩

/-- Induction on the delays. -/
theorem fires_come (delays : List Nat) (m : Machine) : ∃ m' events,
    (delays.forM (Action.fire env)).perform m = (.ok (), m') ∧
      m'.history = m.history ++ events ∧ Comes env delays events := by
  induction delays generalizing m with
  | nil => exact ⟨m, [], rfl, by simp, .none⟩
  | cons delay delays ih =>
    obtain ⟨m₁, after, hfire, hhistory, hafter⟩ := @fire_comes env delay m
    obtain ⟨m', events, hrest, hhistory', hcomes⟩ := ih m₁
    refine ⟨m', _, ?_, ?_, .next hafter hcomes⟩
    · rw [List.forM, Action.perform_bind_of_ok _ hfire, hrest]
    · simp [hhistory', hhistory]

/-- Every armed reboot comes, and none that is not. -/
theorem settle_comes (env : Environment) (m : Machine) : ∃ m' events,
    (Action.settle env).perform m = (.ok (), m') ∧ m'.history = m.history ++ events ∧
      Comes env m.armed events := by
  obtain ⟨m', events, hfires, hhistory, hcomes⟩ := @fires_come env m.armed { m with armed := [] }
  exact ⟨m', events, hfires, hhistory, hcomes⟩

/-! ### The gate -/

/-- How a workflow ends that arms a reboot if it succeeds. Without a delay nothing of its end has
happened. With one, everything else of the workflow comes before its end. -/
structure Gated (env : Environment) (P : Event → Prop) (configured : Nat) (told : List Event)
    (m m' : Machine) (delay? : Option Nat) : Prop where
  held : delay? = none → m.Records P m'
  passed : ∀ delay, delay? = some delay →
    delay = configured ∧ ∃ m₁, m.Records P m₁ ∧ m' = m₁.closed delay told
  settled : ∃ m'' events, (Action.settle env).perform m' = (.ok (), m'') ∧
    m''.history = m'.history ++ events ∧ Comes env (m.armed ++ delay?.toList) events ∧
    events.countP Event.isReboot = m.armed.length + delay?.toList.length

theorem gated_of_cases {configured : Nat} {told : List Event} {delay? : Option Nat}
    (h : (delay? = none ∧ m.Records P m') ∨
      delay? = some configured ∧ ∃ m₁, m.Records P m₁ ∧ m' = m₁.closed configured told) :
    Gated env P configured told m m' delay? := by
  have harmed : m'.armed = m.armed ++ delay?.toList := by
    rcases h with ⟨rfl, hheld⟩ | ⟨rfl, m₁, hpassed, rfl⟩
    · simp [hheld.armed]
    · simp [Machine.closed, hpassed.armed]
  obtain ⟨m'', events, hsettle, hhistory, hcomes⟩ := settle_comes env m'
  rw [harmed] at hcomes
  refine ⟨?_, ?_, m'', events, hsettle, hhistory, hcomes, ?_⟩
  · rintro rfl
    rcases h with ⟨-, hheld⟩ | ⟨hsome, -⟩
    · exact hheld
    · cases hsome
  · rintro delay rfl
    rcases h with ⟨hnone, -⟩ | ⟨hsome, hpassed⟩
    · cases hnone
    · cases hsome
      exact ⟨rfl, hpassed⟩
  · rw [hcomes.countP_isReboot, List.length_append]

end Groundwork
