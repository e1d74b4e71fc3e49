import Groundwork.Proofs.CommandLine.Consent
import Groundwork.Proofs.Install.Aim

/-! The disk that an operator has agreed to lose, and the disk that an installation changes. The plan
that is shown is not the one that is carried out: the installation makes its own. -/
namespace Groundwork

variable {env : Environment} {config : Config} {environment : Config → Environment}
  {arguments : List String} {input : Input} {call : Invocation} {options : InstallOptions}
  {m m₁ m' : Machine}

/-- Reboots change no disk. -/
theorem Comes.sparesDisks {delays : List Nat} {events : List Event} (h : Comes env delays events) :
    ∀ v ∈ events, v.SparesDisks env := by
  have hafter {v : Event} (hv : v.IsAftermath env) : v.SparesDisks env := by
    cases v with
    | logged => trivial
    | wrote path => exact hv
    | _ => exact hv.elim
  induction h with
  | none => simp
  | @next delay delays after events hall _ ih =>
    simp only [List.forall_mem_cons, List.forall_mem_append]
    exact ⟨trivial, trivial, fun v hv => hafter (hall v hv), ih⟩

theorem Config.validate_of_load {path : String} {content : Except SystemError String}
    (h : Config.load path content = .ok config) : config.validate = .ok () := by
  have hvalidated (r : Except Failure Config)
      (h : (do let c ← r; c.validate; return c) = .ok config) : config.validate = .ok () := by
    cases r with
    | error e => cases h
    | ok c =>
      cases hc : c.validate with
      | error e => simp [bind, Except.bind, hc] at h
      | ok _ =>
        simp only [bind, Except.bind, hc] at h
        cases h
        exact hc
  unfold Config.load at h
  dsimp only at h
  split at h
  · exact hvalidated _ h
  · split at h
    · exact hvalidated (.ok _) h
    · exact hvalidated (.error _) h

namespace CommandLine

theorem Asking.sparesDisks (h : Asking env (.install options) m m') :
    m.Adds (Event.SparesDisks env) m' := by
  refine h.spared.history.mono fun v hv => ?_
  cases v with
  | ran call =>
    obtain ⟨c, -, hc⟩ := List.mem_map.1 hv
    change Install.changesDisk call.command = false
    rw [← hc]
    rfl
  | wrote | looked | slept | synced | rebooted => exact hv.elim
  | _ => trivial

theorem shown_sparesDisks (lines : List String) (m : Machine) :
    m.Adds (Event.SparesDisks env) (shown lines m) := by
  induction lines generalizing m with
  | nil => exact .refl _ _
  | cons line lines ih => exact .trans (.record trivial _) (ih _)

/-- Work that was agreed to changes disks only while it runs. -/
theorem carriedOut_sparesDisks {order : Order} {work : Action (List String)}
    {r : Except Failure (List String)} (h : work.perform m = (r, m₁)) :
    m₁.Adds (Event.SparesDisks env) (carriedOut env order work m).2 := by
  rw [carriedOut, h]
  cases r with
  | error e => exact .trans (.record trivial _) (.record trivial _)
  | ok lines =>
    refine .trans (shown_sparesDisks lines m₁) ?_
    dsimp only
    split
    · obtain ⟨m', events, hsettle, hhistory, hcomes⟩ := settle_comes env (shown lines m₁)
      rw [hsettle]
      exact ⟨events, hhistory, hcomes.sparesDisks⟩
    · exact .refl _ _

variable (env config options) in
/-- An installation, with the line that the operator is shown at its end. -/
def installation : Action (List String) := do
  let delay ← Install.run env config options
  return [doneText "Install" delay]

theorem perform_installation {r : Except Failure (Option Nat)}
    (h : (Install.run env config options).perform m = (r, m₁)) :
    (installation env config options).perform m =
      (r.map fun delay => [doneText "Install" delay], m₁) := by
  rw [installation, Action.perform_bind, h]
  cases r <;> rfl

/-- The installation that was agreed to fails without a target, and else it is aimed at that. -/
theorem installation_aim (hvalid : config.validate = .ok ()) {order : Order} {code : Nat}
    (h : carriedOut env order (installation env config options) m = (code, m')) :
    (∀ e m₁, (Install.scout env config options).perform m = (.error e, m₁) →
      code = 1 ∧ m.Adds (Event.SparesDisks env) m') ∧
    ∀ plan m₁, (Install.scout env config options).perform m = (.ok plan, m₁) →
      m.Adds (Event.IsAimed env plan.target.kernelName) m' ∧
      ∀ other, m.Adds (Event.IsAimed env other) m' →
        m.Adds (Event.SparesDisks env) m' ∨ other = plan.target.kernelName := by
  have haim {disk : String} (v : Event) (hv : v.SparesDisks env) : v.IsAimed env disk :=
    Event.isAimed_of_sparesDisks hv
  obtain ⟨r, m₁, hrun, hends⟩ := Install.run_ends env config options m
  obtain ⟨r₁, m₂, hwork, hcalm⟩ := hends.afterwards
  have hafter : m₂.Adds (Event.SparesDisks env) m' := by
    have hlater := @carriedOut_sparesDisks env _ _ order _ _ (perform_installation hrun)
    rw [h] at hlater
    exact (hcalm.mono fun _ => Event.sparesDisks_of_isCalm).trans hlater
  have haimed := Install.work_aimed hvalid hwork
  refine ⟨fun e m₃ hscout => ⟨?_, ?_⟩, fun plan m₃ hscout => ?_⟩
  · have hperform : (Install.perform env config options).perform m = (.error e, m₃) := by
      rw [Install.perform_eq_phases]
      exact Action.perform_bind_of_error _ (Action.perform_bind_of_error _ hscout)
    rw [carriedOut, perform_installation (Install.run_of_error hperform)] at h
    exact (congrArg Prod.fst h).symm
  · rcases haimed with hspared | ⟨plan, m₄, hscout', -⟩
    · exact hspared.trans hafter
    · cases hscout.symm.trans hscout'
  · rcases haimed with hspared | ⟨plan', m₄, hscout', haimed, honly⟩
    · have hwhole := hspared.trans hafter
      exact ⟨hwhole.mono haim, fun _ _ => .inl hwhole⟩
    · cases hscout.symm.trans hscout'
      refine ⟨haimed.trans (hafter.mono haim), fun other hother => ?_⟩
      exact (honly other (hother.of_trans haimed hafter).1).imp (·.trans hafter) id

/-- All that an installation changes is on the target of the plan that it makes after the operator has
agreed. That is the disk which the operator was warned of if and only if both plans choose one of the
same kernel name, unless no disk is changed at all. -/
theorem manage_install_aim (hparse : Invocation.parse? arguments = some call)
    (horder : call.order = .install options)
    (hload : Config.load call.config (m.files.readText call.config) = .ok config) {code : Nat}
    (hrun : (manage environment arguments input).run m = (code, m')) :
    ((agrees input = false ∨
        ∃ e m₁, (Install.plan (environment config) config options).perform m = (.error e, m₁)) →
      m.Adds (Event.SparesDisks (environment config)) m') ∧
    ∀ plan m₁, agrees input = true →
      (Install.plan (environment config) config options).perform m = (.ok plan, m₁) →
      (∀ e m₂, (Install.scout (environment config) config options).perform
          (asked (planLines plan) m₁) = (.error e, m₂) →
        code = 1 ∧ m.Adds (Event.SparesDisks (environment config)) m') ∧
      ∀ plan' m₂, (Install.scout (environment config) config options).perform
          (asked (planLines plan) m₁) = (.ok plan', m₂) →
        m.Adds (Event.IsAimed (environment config) plan'.target.kernelName) m' ∧
        (m.Adds (Event.IsAimed (environment config) plan.target.kernelName) m' ↔
          m.Adds (Event.SparesDisks (environment config)) m' ∨
            plan'.target.kernelName = plan.target.kernelName) := by
  have haim {disk : String} (v : Event) (h : v.SparesDisks (environment config)) :
      v.IsAimed (environment config) disk := Event.isAimed_of_sparesDisks h
  refine ⟨fun hstops => ?_, fun plan m₁ hyes hplan => ?_⟩
  · have hasking := @asking_manage _ environment arguments input _ _ hparse hload (horder ▸ rfl)
      (hstops.imp id ?_)
    · rw [hrun, horder] at hasking
      exact hasking.sparesDisks
    · rintro ⟨e, m₁, hplan⟩ ⟨work, m₂, hproposes⟩
      rw [horder] at hproposes
      cases hproposes with
      | install h => cases hplan.symm.trans h
  · have hproposes : Proposes (environment config) config m call.order
        (installation (environment config) config options) (asked (planLines plan) m₁) := by
      rw [horder]
      exact .install hplan
    have hwork := manage_of_agrees hparse hload hyes hproposes
    have hbefore := hproposes.asking
    rw [horder] at hbefore
    rw [hrun] at hwork
    obtain ⟨hlost, hmade⟩ := installation_aim (Config.validate_of_load hload) hwork.symm
    refine ⟨fun e m₂ hscout => ?_, fun plan' m₂ hscout => ?_⟩
    · obtain ⟨hcode, hspared⟩ := hlost e m₂ hscout
      exact ⟨hcode, hbefore.sparesDisks.trans hspared⟩
    · obtain ⟨haimed, honly⟩ := hmade plan' m₂ hscout
      have hwhole := (hbefore.sparesDisks.mono haim).trans haimed
      refine ⟨hwhole, fun hother => ?_, fun h => ?_⟩
      · have hlater := (hother.of_trans hbefore.sparesDisks haimed).2
        exact (honly _ hlater).imp (hbefore.sparesDisks.trans ·) Eq.symm
      · rcases h with hspared | hsame
        · exact hspared.mono haim
        · exact hsame ▸ hwhole

theorem manage_install_aim_sample : ∃ code m',
    (manage (fun _ => Install.damagedEnvironment) ["install"] "yes\n").run Install.sampleMachine =
      (code, m') ∧
    Install.sampleMachine.Adds (Event.IsAimed Install.damagedEnvironment "/dev/vdb") m' := by
  have hparse : Invocation.parse? ["install"] = some ⟨defaultConfigPath, .install {}⟩ := by
    decide +kernel
  have hload : Config.load defaultConfigPath
      (Install.sampleMachine.files.readText defaultConfigPath) = .ok {} := by decide +kernel
  have hplan : Action.Yields Install.sampleMachine.files
      (Install.plan Install.damagedEnvironment {} {}) Install.damagedPlan
      Install.sampleMachine.files :=
    @Install.yields_plan_damagedEnvironment {} _ ["boot"] 8 rfl rfl
  obtain ⟨m₁, hfirst, hfiles⟩ := hplan Install.sampleMachine rfl
  have hscout : Action.Yields Install.sampleMachine.files
      (Install.scout Install.damagedEnvironment {} {}) Install.damagedPlan
      Install.sampleMachine.files :=
    (Action.Yields.note _ _).bind <| hplan.bind <| (Action.Yields.note _ _).bind (.pure _ _)
  obtain ⟨m₂, hsecond, -⟩ := hscout (asked (planLines Install.damagedPlan) m₁) hfiles
  rcases hrun : (manage (fun _ => Install.damagedEnvironment) ["install"] "yes\n").run
    Install.sampleMachine with ⟨code, m'⟩
  obtain ⟨-, haims⟩ := manage_install_aim hparse rfl hload hrun
  exact ⟨code, m', rfl, ((haims _ m₁ (by decide +kernel) hfirst).2 _ m₂ hsecond).1⟩

/-! ### A disk that comes while the operator is asked -/

def joinedListing : String :=
  "\x7b\"blockdevices\":[\x7b\"kname\":\"/dev/vdc\",\"id-link\":\"b2\",\"size\":99999999999\x7d]\x7d"

/-- The machine of two disks, to which a third one is joined after the disks were listed once. -/
def joinedEnvironment : Environment :=
  { Install.sampleEnvironment with
    tool := fun m c =>
      if c = DiskClass.nvme.query ∧ c ∈ m.commands then
        some (⟨some 0, joinedListing, ""⟩, m.files)
      else Install.sampleEnvironment.tool m c }

/-- What the operator has been shown. -/
def printed (m : Machine) : List String := m.history.filterMap fun
  | .printed text => some text
  | _ => none

/-- The operator agrees to lose one disk, and another one is erased. -/
theorem another_disk_erased :
    printed ((manage (fun _ => joinedEnvironment) ["install", "--target", "b", "--force"] "yes\n").run
      Install.sampleMachine).2 =
        ["Source: /dev/vda", "Target: /dev/vdb (b)", "",
          "⚠️  WARNING: This will ERASE ALL DATA on /dev/vdb (b)", prompt] ∧
    ((manage (fun _ => joinedEnvironment) ["install", "--target", "b", "--force"] "yes\n").run
      Install.sampleMachine).2.commands.filter Install.changesDisk =
        [⟨"sgdisk", ["-Z", "/dev/vdc"]⟩, ⟨"blkdiscard", ["-f", "/dev/vdc"]⟩] := by
  have hboth : (fun m : Machine => (printed m, m.commands.filter Install.changesDisk))
      ((manage (fun _ => joinedEnvironment) ["install", "--target", "b", "--force"] "yes\n").run
        Install.sampleMachine).2 =
      (["Source: /dev/vda", "Target: /dev/vdb (b)", "",
          "⚠️  WARNING: This will ERASE ALL DATA on /dev/vdb (b)", prompt],
        [⟨"sgdisk", ["-Z", "/dev/vdc"]⟩, ⟨"blkdiscard", ["-f", "/dev/vdc"]⟩]) := by
    decide +kernel
  exact ⟨congrArg Prod.fst hboth, congrArg Prod.snd hboth⟩

end CommandLine

end Groundwork
