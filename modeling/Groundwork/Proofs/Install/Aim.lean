import Groundwork.Proofs.Install.Media
import Groundwork.Proofs.Install.Order

/-! The disk that an installation changes. It is that of the plan which the installation makes itself,
and it is told from any other disk as soon as anything is changed. -/
namespace Groundwork

/-- Whether an event changes no disk. The trigger of a reboot is a file and no partition. -/
def Event.SparesDisks (env : Environment) : Event → Prop
  | .ran call => Install.changesDisk call.command = false
  | .wrote path => env.power = .trigger path
  | _ => True

/-- Whether an event changes no disk but one. -/
def Event.IsAimed (env : Environment) (disk : String) : Event → Prop
  | .ran call => Install.changesDisk call.command = true →
    call.command.arguments.getLast? = some disk
  | .wrote path => env.power = .trigger path ∨ ∃ index, path = partitionPath disk index
  | _ => True

/-- Whether an event asks for no tool and writes no file. -/
def Event.IsCalm : Event → Prop
  | .ran _ | .wrote _ => False
  | _ => True

variable {env : Environment} {config : Config} {options : InstallOptions} {m m₁ m' : Machine}
  {disk other : String} {events : List Event} {v : Event}

namespace Event

theorem isAimed_of_sparesDisks (h : v.SparesDisks env) : v.IsAimed env disk := by
  cases v with
  | ran call =>
    intro hchanges
    rw [show Install.changesDisk call.command = false from h] at hchanges
    cases hchanges
  | wrote path => exact .inl h
  | _ => trivial

theorem sparesDisks_of_isCalm (h : v.IsCalm) : v.SparesDisks env := by
  cases v with
  | ran | wrote => exact h.elim
  | _ => trivial

end Event

/-- The call of a request in a course is recorded. -/
theorem Course.mem_events {as : List Attempt} {a : Attempt} {call : Call}
    (h : Course env Machine.Reports m as m') (hevents : m'.history = m.history ++ events)
    (ha : a ∈ as) (hcall : call ∈ a.call? env) : .ran call ∈ events := by
  have hcalls := h.calls fun _ _ hq => hq.calls
  rw [Machine.calls, hevents, List.filterMap_append] at hcalls
  have hmem : call ∈ as.filterMap (Attempt.call? env) := List.mem_filterMap.2 ⟨a, ha, hcall⟩
  rw [← List.append_cancel_left hcalls] at hmem
  obtain ⟨v, hv, hran⟩ := List.mem_filterMap.1 hmem
  cases v with
  | ran call' => rwa [Option.some.inj hran] at hv
  | _ => cases hran

/-- One call that changes a disk tells which disk is aimed at. -/
theorem Course.eq_of_isAimed {as : List Attempt} {a : Attempt} {call : Call}
    (hcourse : Course env Machine.Reports m as m') (ha : a ∈ as) (hcall : call ∈ a.call? env)
    (hchanges : Install.changesDisk call.command = true) (h : m.Adds (Event.IsAimed env disk) m')
    (h' : m.Adds (Event.IsAimed env other) m') : other = disk := by
  obtain ⟨events, hevents, haimed⟩ := h
  have hmem := hcourse.mem_events hevents ha hcall
  have hsame := (h'.forall_mem hevents _ hmem hchanges).symm.trans (haimed _ hmem hchanges)
  exact Option.some.inj hsame

theorem Machine.Reports.adds {P : Event → Prop} (htold : ∀ n, P (.told n))
    (hlogged : ∀ level text, P (.logged level text)) (h : m.Reports m') : m.Adds P m' := by
  cases h with
  | told n => exact .record (htold n) m
  | logged level text => exact .record (hlogged level text) m

theorem Attempt.command_eq_of_call {a : Attempt} {call : Call} (h : call ∈ a.call? env) :
    call.command = a.command := by
  obtain ⟨r, -, rfl⟩ := Option.map_eq_some_iff.1 h
  rfl

namespace Install

/-! ### The work -/

/-- Behind the work of an installation no tool is asked for, and no file is written. -/
theorem Ends.afterwards {r : Except Failure (Option Nat)} (h : Ends env config options m r m') :
    ∃ r₁ m₁, (work env config options).perform m = (r₁, m₁) ∧ m₁.Adds Event.IsCalm m' := by
  have hclosed (m : Machine) (delay : Nat) :
      m.Adds Event.IsCalm (m.closed delay [.told .done]) :=
    ⟨_, rfl, by simp [Event.IsCalm]⟩
  have hwaits {marker : String} {seen : Nat} {m' : Machine}
      (h : Waited env config options m marker seen m') :
      ∃ r₁ m₁, (work env config options).perform m = (r₁, m₁) ∧ m₁.Adds Event.IsCalm m' := by
    obtain ⟨plan, m₁, hwork, hrest⟩ :=
      h.records (P := Event.IsCalm) trivial trivial (fun _ _ => trivial) fun _ => trivial
    exact ⟨_, m₁, hwork, hrest.history⟩
  cases h with
  | failed hwork => exact ⟨_, _, hwork, .record trivial _⟩
  | forced hwork hforced => exact ⟨_, _, hwork, .trans (.record trivial _) (hclosed _ _)⟩
  | gone hwaited h he =>
    obtain ⟨r₁, m₁, hwork, hcalm⟩ := hwaits hwaited
    exact ⟨r₁, m₁, hwork, hcalm.trans (.trans (.record trivial _) (hclosed _ _))⟩
  | unseen hwaited h he =>
    obtain ⟨r₁, m₁, hwork, hcalm⟩ := hwaits hwaited
    exact ⟨r₁, m₁, hwork, hcalm.trans (.record trivial _)⟩
  | waits hwaited => exact hwaits hwaited

theorem exists_partitionNumber (hvalid : config.validate = .ok ()) (source : Source) :
    ∃ index, index ∈ partitionNumbers config source := by
  have hclones : 0 <
      if source.readOnly then config.layout.cloneCountReadOnly else config.layout.cloneCount := by
    have hlayout : config.layout.validate = .ok () := by
      cases hl : config.layout.validate with
      | ok _ => rfl
      | error e => simp [Config.validate, hl, bind, Except.bind] at hvalid
    unfold Layout.validate at hlayout
    split at hlayout
    · cases hlayout
    · split <;> omega
  exact ⟨1, List.mem_range'_1.2 ⟨Nat.le_refl 1, by omega⟩⟩

theorem work_cases {r : Except Failure InstallPlan}
    (h : (work env config options).perform m = (r, m')) :
    (∃ as, Course env Machine.Reports m as m' ∧
      as.map (·.command) <+: Disk.listings) ∨
    ∃ plan entries wipes done as m₁, Prepared env config options m m₁ plan entries wipes done as ∧
      ((done = false ∧ m' = m₁) ∨ (done = true ∧
        ∃ r, (fill env config plan.source plan.target.kernelName).perform m₁ = (r, m'))) := by
  rw [work, Action.perform_bind] at h
  cases hready : (makeReady env config options).perform m with
  | mk r₁ m₁ =>
    rw [hready] at h
    rcases makeReady_cases hready with ⟨e, as, rfl, hcourse, hasked, -⟩ |
      ⟨plan, entries, wipes, done, as, hprepared, ⟨hd, e, rfl⟩ | ⟨hd, rfl⟩⟩
    · cases h
      exact .inl ⟨as, hcourse, hasked⟩
    · cases h
      exact .inr ⟨plan, entries, wipes, done, as, _, hprepared, .inl ⟨hd, rfl⟩⟩
    · refine .inr ⟨plan, entries, wipes, done, as, m₁, hprepared, .inr ⟨hd, ?_⟩⟩
      dsimp only at h
      rw [Action.perform_bind] at h
      cases hfill : (fill env config plan.source plan.target.kernelName).perform m₁ with
      | mk r₂ m₂ =>
        rw [hfill] at h
        cases r₂ <;> cases h <;> exact ⟨_, rfl⟩

variable {plan : InstallPlan} {entries : Nat → Partition × String} {wipes : Bool}
  {as : List Attempt}

theorem Prepared.adds_isAimed {done : Bool}
    (h : Prepared env config options m m' plan entries wipes done as) :
    m.Adds (Event.IsAimed env plan.target.kernelName) m' := by
  refine h.course.adds (fun _ _ hq => hq.adds (fun _ => trivial) fun _ _ => trivial) ?_
  intro a ha call hcall hchanges
  rw [Attempt.command_eq_of_call hcall] at hchanges ⊢
  exact aim_of_mem_sequence (h.asked.isPrefix.subset (List.mem_map.2 ⟨a, ha, rfl⟩)) hchanges

/-- A target that is ready was changed: one partition at least was made on it. -/
theorem Prepared.exists_creation (hvalid : config.validate = .ok ())
    (h : Prepared env config options m m' plan entries wipes true as) :
    ∃ a ∈ as, ∃ call ∈ a.call? env, changesDisk call.command = true := by
  obtain ⟨index, hindex⟩ := exists_partitionNumber hvalid plan.source
  obtain ⟨hlength, hpassed⟩ := h.asked.done_iff.1 rfl
  have hall : as.map (·.command) = sequence config plan entries wipes :=
    h.asked.isPrefix.eq_of_length (by rw [List.length_map, hlength])
  have hmem : PartitionTable.createCommand plan.target.kernelName (entries index).1 (entries index).2 ∈
      as.map (·.command) := by
    rw [hall]
    refine List.mem_append_right _ (.tail _ (List.mem_append_right _ ?_))
    exact createCommand_mem_cloning _ _ hindex
  obtain ⟨⟨m₁, c⟩, ha, rfl⟩ := List.mem_map.1 hmem
  have hsucceeds := hpassed _ ha
  rw [goesOn_create] at hsucceeds
  unfold Attempt.succeeds at hsucceeds
  cases htool : env.tool m₁ (PartitionTable.createCommand plan.target.kernelName (entries index).1
      (entries index).2) with
  | none => simp [htool] at hsucceeds
  | some r => exact ⟨_, ha, _, by simp [Attempt.call?, htool]; rfl, rfl⟩

/-- The work changes no disk but the target of its own plan; and it is aimed at no other disk as well,
unless it changes none. -/
theorem work_aimed (hvalid : config.validate = .ok ()) {r : Except Failure InstallPlan}
    (h : (work env config options).perform m = (r, m')) :
    m.Adds (Event.SparesDisks env) m' ∨ ∃ plan m₁,
      (scout env config options).perform m = (.ok plan, m₁) ∧
      m.Adds (Event.IsAimed env plan.target.kernelName) m' ∧
      ∀ other, m.Adds (Event.IsAimed env other) m' →
        m.Adds (Event.SparesDisks env) m' ∨ other = plan.target.kernelName := by
  have hreports (m m' : Machine) (hq : m.Reports m') : m.Adds (Event.SparesDisks env) m' :=
    hq.adds (fun _ => trivial) fun _ _ => trivial
  rcases work_cases h with ⟨as, hcourse, hasked⟩ |
    ⟨plan, entries, wipes, done, as, m₁, hprepared, ⟨rfl, rfl⟩ | ⟨rfl, r₂, hfill⟩⟩
  · refine .inl (hcourse.adds hreports fun a ha call hcall => ?_)
    have hquery := hasked.subset (List.mem_map.2 ⟨a, ha, rfl⟩)
    obtain ⟨c, -, hc⟩ := List.mem_map.1 hquery
    change changesDisk call.command = false
    rw [Attempt.command_eq_of_call hcall, ← hc]
    rfl
  · obtain ⟨m₂, hscout⟩ := hprepared.scouted
    refine .inr ⟨plan, m₂, hscout, hprepared.adds_isAimed, fun other hother => ?_⟩
    by_cases hchanges : ∃ a ∈ as, ∃ call ∈ a.call? env, changesDisk call.command = true
    · obtain ⟨a, ha, call, hcall, hchanges⟩ := hchanges
      exact .inr (hprepared.course.eq_of_isAimed ha hcall hchanges hprepared.adds_isAimed hother)
    · refine .inl (hprepared.course.adds hreports fun a ha call hcall => ?_)
      exact Bool.eq_false_iff.2 fun hchange => hchanges ⟨a, ha, call, hcall, hchange⟩
  · obtain ⟨m₂, hscout⟩ := hprepared.scouted
    have hfilled : m₁.Adds (Event.IsAimed env plan.target.kernelName) m' := by
      have hrecords : Action.Within (Machine.Records (Event.IsAimed env plan.target.kernelName))
          (fill env config plan.source plan.target.kernelName) :=
        records_fill (fun index => .inr ⟨index, rfl⟩) (fun _ _ => trivial) fun _ => trivial
      exact (hrecords.of_eq hfill).history
    refine .inr ⟨plan, m₂, hscout, hprepared.adds_isAimed.trans hfilled, fun other hother => ?_⟩
    obtain ⟨a, ha, call, hcall, hchanges⟩ := hprepared.exists_creation hvalid
    exact .inr (hprepared.course.eq_of_isAimed ha hcall hchanges hprepared.adds_isAimed
      (hother.of_trans hprepared.adds_isAimed hfilled).1)

end Install

end Groundwork
