import Groundwork.Proofs.Install.Phases
import Groundwork.Proofs.Reboot

/-! How an installation ends. Its work is followed by looks whether the media is still there, with a
sleep after each that has found it, until one does not; then the disks are flushed. -/
namespace Groundwork.Install

variable {env : Environment} {config : Config} {options : InstallOptions} {m m₁ m' : Machine}
  {source : Source} {target marker : String} {seen : Nat}

/-! ### The work of an installation -/

theorem works_scout : Action.Works (scout env config options) := by
  have hplan : Action.Works (plan env config options) :=
    works_detect.bind fun _ => works_disks.bind fun _ => (Action.Works.still fun _ => rfl).bind
      fun _ => (Action.Works.ofExcept _).bind fun _ => .still fun _ => rfl
  exact (Action.Works.announce _).bind fun _ => hplan.bind fun _ =>
    (Action.Works.logged _ _).bind fun _ => .still fun _ => rfl

theorem works_examine : Action.Works (examine env options target) := by
  refine (PartitionTable.works_check target).bind fun state => ?_
  cases state with
  | absent => exact .still fun _ => rfl
  | present =>
    rw [mustWipe]
    split
    · exact .still fun _ => rfl
    · exact .still fun _ => rfl
  | damaged => exact (Action.Works.logged _ _).bind fun _ => .still fun _ => rfl

theorem works_teardown (wipes : Bool) :
    Action.Works (teardown env config source target wipes) := by
  have hwipe : Action.Works (wipe env target) :=
    (PartitionTable.works_zap target).bind fun _ => (Action.Works.logged _ _).bind fun _ =>
      (Action.Works.run _).bind fun _ => .still fun _ => rfl
  have hunmount : Action.Works (unmountBoot env config source) := by
    refine (Action.Works.logged _ _).bind fun _ =>
      Action.Works.bind (Action.Within.attempt (Action.Works.runChecked _)) fun r => ?_
    split
    · exact .still fun _ => rfl
    · split
      · exact .logged _ _
      · exact .still fun _ => rfl
  have hrelease : Action.Works (do
      Action.logInfo "Disabling swap"
      let _ ← Action.runChecked env swapoffCommand
      unmountBoot env config source) :=
    (Action.Works.logged _ _).bind fun _ => (Action.Works.runChecked _).bind fun _ => hunmount
  cases wipes with
  | true => exact hwipe.bind fun _ => hrelease
  | false => exact hrelease

theorem works_makeReady : Action.Works (makeReady env config options) := by
  have hcreate (source : Source) (target : String) (index : Nat) :
      Action.Works (createPartition env config source target index) :=
    (Action.Works.announce _).bind fun _ => (PartitionTable.works_info _ _).bind fun _ =>
      PartitionTable.works_create _ _
  have hprepare (source : Source) (target : String) (wipes : Bool) :
      Action.Works (prepare env config source target wipes) :=
    Action.Works.bind ((works_teardown wipes).marking _) fun _ =>
      .forM fun _ => (hcreate _ _ _).marking _
  exact works_scout.bind fun _ => works_examine.bind fun _ => (hprepare _ _ _).bind fun _ =>
    .still fun _ => rfl

/-- The contents are written to partitions of the target. -/
theorem records_fill {P : Event → Prop}
    (hwrote : ∀ index, P (.wrote (partitionPath target index)))
    (htold : ∀ n, n ≠ .done → P (.told n)) (hlogged : ∀ text, P (.logged .info text)) :
    Action.Within (Machine.Records P) (fill env config source target) := by
  have hchains := Machine.Records.chains P
  have hcopy (index : Nat) :
      Action.Within (Machine.Records P) (copyPartition env config source target index) :=
    .bind hchains (Machine.Records.note (htold _ Notice.noConfusion)) fun _ =>
      .bind hchains (Machine.Records.note (hlogged _)) fun _ =>
        Copy.records_contents (hwrote index) fun _ _ => htold _ Notice.noConfusion
  have hremove : Action.Within (Machine.Records P) (removeSeed config target) := by
    intro m
    rw [perform_removeSeed]
    split
    · exact .refl P m
    · split
      · exact records_store hlogged (hwrote _) _ m
      · exact .refl P m
  exact .bind hchains (.forM hchains fun index _ => (hcopy index).marking _) fun _ =>
    .bind hchains (Machine.Records.note (htold _ Notice.noConfusion)) fun _ => hremove.marking _

variable (env config options) in
/-- All of an installation but its end. -/
def work : Action InstallPlan := do
  let plan ← makeReady env config options
  fill env config plan.source plan.target.kernelName
  return plan

theorem perform_eq_work : Install.perform env config options = (do
    let plan ← work env config options
    conclude env config options plan.source) := by
  simp only [perform_eq_phases, work, furnish, bind_assoc, pure_bind]

theorem works_work : Action.Works (work env config options) := by
  have hfill (plan : InstallPlan) :
      Action.Works (fill env config plan.source plan.target.kernelName) :=
    records_fill (fun _ => trivial) (fun _ hn => hn) fun _ => trivial
  exact works_makeReady.bind fun plan => (hfill plan).bind fun _ => .still fun _ => rfl

/-! ### The looks at the media -/

variable (env config) in
/-- A machine after a look that has found the media. -/
def passed (marker : String) (m : Machine) : Machine :=
  (m.record (.looked marker true)).rested env config.delays.mediaPoll

/-- A number of looks that have all found the media. -/
inductive Present (env : Environment) (config : Config) (marker : String) :
    Nat → Machine → Machine → Prop
  | none (m : Machine) : Present env config marker 0 m m
  | look {seen : Nat} {m m' : Machine} (h : (m.files.find marker true).isOk = true)
    (rest : Present env config marker seen (passed env config marker m) m') :
    Present env config marker (seen + 1) m m'

theorem perform_awaitRemoval (marker : String) (looks : Nat) (m : Machine) :
    (awaitRemoval env config marker (looks + 1)).perform m =
      match m.files.find marker true with
      | .ok _ => (awaitRemoval env config marker looks).perform (passed env config marker m)
      | .error e =>
        if e.kind = .notFound then (.ok true, m.record (.looked marker false))
        else (.error (.system e), m) := by
  rw [awaitRemoval, Action.perform_bind_of_ok _ (Action.perform_get m)]
  cases m.files.find marker true with
  | ok x => rfl
  | error e =>
    dsimp only
    split <;> rfl

/-- What becomes of the looks. -/
inductive Looked (env : Environment) (config : Config) (marker : String) (looks : Nat) (m : Machine) :
    Except Failure Bool → Machine → Prop
  | gone {seen : Nat} {m₁ : Machine} {e : SystemError} (hpresent : Present env config marker seen m m₁)
    (h : m₁.files.find marker true = .error e) (he : e.kind = .notFound) :
    Looked env config marker looks m (.ok true) (m₁.record (.looked marker false))
  | unseen {seen : Nat} {m₁ : Machine} {e : SystemError}
    (hpresent : Present env config marker seen m m₁)
    (h : m₁.files.find marker true = .error e) (he : e.kind ≠ .notFound) :
    Looked env config marker looks m (.error (.system e)) m₁
  | still {m₁ : Machine} (hpresent : Present env config marker looks m m₁) :
    Looked env config marker looks m (.ok false) m₁

/-- Induction on the looks that are left. -/
theorem looked_awaitRemoval (marker : String) (looks : Nat) (m : Machine) : ∃ r m',
    (awaitRemoval env config marker looks).perform m = (r, m') ∧
      Looked env config marker looks m r m' := by
  induction looks generalizing m with
  | zero => exact ⟨_, _, rfl, .still (.none m)⟩
  | succ looks ih =>
    rw [perform_awaitRemoval]
    cases hfind : m.files.find marker true with
    | ok x =>
      have hlook : (m.files.find marker true).isOk = true := by rw [hfind]; rfl
      obtain ⟨r, m', hperform, hlooked⟩ := ih (passed env config marker m)
      refine ⟨r, m', hperform, ?_⟩
      cases hlooked with
      | gone hpresent h he => exact .gone (.look hlook hpresent) h he
      | unseen hpresent h he => exact .unseen (.look hlook hpresent) h he
      | still hpresent => exact .still (.look hlook hpresent)
    | error e =>
      dsimp only
      split
      · next he => exact ⟨_, _, rfl, .gone (.none m) hfind he⟩
      · next he => exact ⟨_, _, rfl, .unseen (.none m) hfind he⟩

/-- Looks ask for no tool and write no file. -/
theorem records_present {P : Event → Prop} (hlooked : P (.looked marker true))
    (hslept : P (.slept config.delays.mediaPoll)) (h : Present env config marker seen m m') :
    m.Records P m' := by
  induction h with
  | none => exact .refl _ _
  | @look seen m m' _ _ ih =>
    have hpassed : m.Records P (passed env config marker m) :=
      ⟨⟨[.looked marker true, .slept config.delays.mediaPoll],
        by simp [passed, Machine.rested, Machine.record], by simp [hlooked, hslept]⟩, rfl⟩
    exact hpassed.trans ih

/-! ### The end of an installation -/

/-- The machine on which an installation has done its work. -/
def finished (m : Machine) : Machine := m.record (.told (.message completion))

/-- The machine on which it starts to look for the media. -/
def awaiting (marker : String) (m : Machine) : Machine :=
  (finished m).record (.logged .info s!"Waiting for {marker} to disappear")

/-- An installation that has done its work and whose looks have all found the media so far: the
optical drive if it was booted from that, else the boot partition of its source. -/
structure Waited (env : Environment) (config : Config) (options : InstallOptions) (m : Machine)
    (marker : String) (seen : Nat) (m' : Machine) : Prop where
  unforced : options.forceReboot = false
  present : ∃ plan m₁, (work env config options).perform m = (.ok plan, m₁) ∧
    marker = (if plan.source.optical then config.paths.opticalDevice
      else partitionPath plan.source.device config.layout.boot) ∧
    Present env config marker seen (awaiting marker m₁) m'

/-- How an installation ends. -/
inductive Ends (env : Environment) (config : Config) (options : InstallOptions) (m : Machine) :
    Except Failure (Option Nat) → Machine → Prop
  /-- It fails in its work. -/
  | failed {m' : Machine} {e : Failure}
    (hwork : (work env config options).perform m = (.error e, m')) :
    Ends env config options m (.error e) (m'.record (.told (failureNotice e)))
  | forced {m' : Machine} {plan : InstallPlan}
    (hwork : (work env config options).perform m = (.ok plan, m'))
    (hforced : options.forceReboot = true) :
    Ends env config options m (.ok (some config.delays.install))
      ((finished m').closed config.delays.install [.told .done])
  /-- The media is gone. -/
  | gone {marker : String} {seen : Nat} {m' : Machine} {e : SystemError}
    (hwaited : Waited env config options m marker seen m')
    (h : m'.files.find marker true = .error e) (he : e.kind = .notFound) :
    Ends env config options m (.ok (some config.delays.install))
      ((m'.record (.looked marker false)).closed config.delays.install [.told .done])
  /-- A look has failed. -/
  | unseen {marker : String} {seen : Nat} {m' : Machine} {e : SystemError}
    (hwaited : Waited env config options m marker seen m')
    (h : m'.files.find marker true = .error e) (he : e.kind ≠ .notFound) :
    Ends env config options m (.error (.interrupted "Waiting for media removal" (.system e)))
      (m'.record (.told (failureNotice (.interrupted "Waiting for media removal" (.system e)))))
  /-- The media was still there after all the looks that the environment allows. -/
  | waits {marker : String} {m' : Machine}
    (hwaited : Waited env config options m marker env.patience m') :
    Ends env config options m (.ok none) m'

theorem perform_conclude (m : Machine) : (conclude env config options source).perform m =
    match (awaitMedia env config source options.forceReboot).perform (finished m) with
    | (.error e, m₁) => (.error (e.mark "Waiting for media removal"), m₁)
    | (.ok true, m₁) =>
      (.ok (some config.delays.install), m₁.closed config.delays.install [.told .done])
    | (.ok false, m₁) => (.ok none, m₁) := by
  rw [conclude, Action.perform_bind_of_ok _ (Action.perform_announce completion m),
    Action.perform_bind, Action.perform_marking, ← finished]
  rcases (awaitMedia env config source options.forceReboot).perform (finished m) with
    ⟨_ | gone, m₁⟩
  · rfl
  · cases gone with
    | false => rfl
    | true =>
      simp only [Action.ok_mapError, if_true]
      rw [Action.perform_bind_of_ok _ (perform_finish _ m₁),
        Action.perform_bind_of_ok _ (Action.perform_tell _ _), Machine.record_closed,
        Action.perform_pure]

/-- A machine after an installation, on which a failure is told. -/
def reported : Except Failure (Option Nat) → Machine → Machine
  | .ok _, m => m
  | .error e, m => m.record (.told (failureNotice e))

theorem perform_ends {r : Except Failure (Option Nat)} {plan : InstallPlan}
    (hwork : (work env config options).perform m = (.ok plan, m₁))
    (h : (conclude env config options plan.source).perform m₁ = (r, m')) :
    Ends env config options m r (reported r m') := by
  rw [perform_conclude, awaitMedia] at h
  cases hforced : options.forceReboot with
  | true =>
    simp only [hforced, if_true, Action.perform_pure] at h
    cases h
    exact .forced hwork hforced
  | false =>
    simp only [hforced, Bool.false_eq_true, if_false,
      Action.perform_bind_of_ok _ (Action.perform_logInfo _ _)] at h
    obtain ⟨gone, m₂, hawait, hlooked⟩ := @looked_awaitRemoval env config
      (mediaMarker config plan.source) env.patience
      (awaiting (mediaMarker config plan.source) m₁)
    rw [← awaiting, hawait] at h
    have hwaited {seen : Nat} {m' : Machine} (hpresent : Present env config
        (mediaMarker config plan.source) seen (awaiting (mediaMarker config plan.source) m₁) m') :
        Waited env config options m (mediaMarker config plan.source) seen m' :=
      ⟨hforced, plan, m₁, hwork, rfl, hpresent⟩
    cases hlooked with
    | gone hpresent hfind he =>
      cases h
      exact .gone (hwaited hpresent) hfind he
    | unseen hpresent hfind he =>
      cases h
      exact .unseen (hwaited hpresent) hfind he
    | still hpresent =>
      cases h
      exact .waits (hwaited hpresent)

theorem run_ends (env : Environment) (config : Config) (options : InstallOptions) (m : Machine) :
    ∃ r m', (Install.run env config options).perform m = (r, m') ∧
      Ends env config options m r m' := by
  have hrun {r : Except Failure (Option Nat)} {m₂ : Machine}
      (h : (Install.perform env config options).perform m = (r, m₂)) :
      (Install.run env config options).perform m = (r, reported r m₂) := by
    rw [perform_run_eq, h]
    cases r <;> rfl
  rw [perform_eq_work] at hrun
  rcases hwork : (work env config options).perform m with ⟨e | plan, m₁⟩
  · exact ⟨_, _, hrun (Action.perform_bind_of_error _ hwork), .failed hwork⟩
  · rcases h : (conclude env config options plan.source).perform m₁ with ⟨r, m'⟩
    exact ⟨_, _, hrun ((Action.perform_bind_of_ok _ hwork).trans h), perform_ends hwork h⟩

theorem Waited.records {P : Event → Prop} (hlooked : P (.looked marker true))
    (hslept : P (.slept config.delays.mediaPoll)) (htold : ∀ n, n ≠ .done → P (.told n))
    (hlogged : ∀ text, P (.logged .info text)) (h : Waited env config options m marker seen m') :
    ∃ plan m₁, (work env config options).perform m = (.ok plan, m₁) ∧ m₁.Records P m' := by
  obtain ⟨plan, m₁, hwork, -, hpresent⟩ := h.present
  have hfinished : m₁.Records P (finished m₁) := .record (htold _ Notice.noConfusion) _
  have hawaiting : (finished m₁).Records P (awaiting marker m₁) := .record (hlogged _) _
  exact ⟨plan, m₁, hwork,
    hfinished.trans (hawaiting.trans (records_present hlooked hslept hpresent))⟩

/-- Everything but the end of an installation comes before its end, and an installation without an
end is still waiting or has failed. -/
theorem Ends.gated {r : Except Failure (Option Nat)} (h : Ends env config options m r m') :
    Gated env Event.IsOpen config.delays.install [.told .done] m m' r.toOption.join := by
  have hopen {r : Except Failure InstallPlan} {m₁ : Machine}
      (hwork : (work env config options).perform m = (r, m₁)) : m.Records Event.IsOpen m₁ :=
    (works_work.of_eq hwork).mono fun _ => Event.isOpen_of_isWork
  have hwaits {marker : String} {seen : Nat} {m' : Machine}
      (h : Waited env config options m marker seen m') : m.Records Event.IsOpen m' := by
    obtain ⟨plan, m₁, hwork, hrest⟩ :=
      h.records (P := Event.IsOpen) trivial trivial (fun _ hn => hn) fun _ => trivial
    exact (hopen hwork).trans hrest
  refine gated_of_cases ?_
  cases h with
  | failed hwork => exact .inl ⟨rfl, (hopen hwork).trans (.record Notice.noConfusion _)⟩
  | forced hwork hforced =>
    exact .inr ⟨rfl, _, (hopen hwork).trans (.record Notice.noConfusion _), rfl⟩
  | gone hwaited h he => exact .inr ⟨rfl, _, (hwaits hwaited).trans (.record trivial _), rfl⟩
  | unseen hwaited h he => exact .inl ⟨rfl, (hwaits hwaited).trans (.record Notice.noConfusion _)⟩
  | waits hwaited => exact .inl ⟨rfl, hwaits hwaited⟩

end Groundwork.Install
