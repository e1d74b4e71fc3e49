import Groundwork.Machine.Scripted
import Groundwork.Proofs.Course
import Groundwork.Proofs.Registry
import Groundwork.Proofs.Seed

/-! The steps of a factory reset. The seeds are worked out before anything changes; one write brings
them to the disk; after it every failure is marked. -/
namespace Groundwork

variable {env : Environment} {config : Config} {request : ResetRequest} {m m' : Machine}
  {t t' : FileTree} {base : Bundle} {disk : String} {e : Failure}

namespace Reset

variable (env config request) in
/-- The disk that a request goes to, and the seeds that it goes on from. -/
def origin (t : FileTree) : Except Failure (String × Bundle) := do
  request.validate
  let disk ← (env.registry t).underlyingDevice (config.paths.anchor.getD env.program)
    config.paths.deviceRoot
  let base ← if request.wipeSeeds then .ok .empty
    else Bundle.onPartition t (partitionPath disk config.layout.seed)
  .ok (disk, base)

theorem unmarked_validate (request : ResetRequest) : FailsOnly Unmarked request.validate := by
  refine .forM ?_
  rintro ⟨seed, payload⟩ -
  have hname : FailsOnly Unmarked (Seed.validateName seed) := by
    unfold Seed.validateName
    split
    · exact .error rfl
    · exact .ok _
  refine hname.bind fun _ => ?_
  unfold Seed.validatePayload
  split
  · exact .error rfl
  · split
    · exact .ok _
    · exact .error rfl

theorem unmarked_origin (t : FileTree) : FailsOnly Unmarked (origin env config request t) := by
  refine (unmarked_validate request).bind fun _ => ?_
  refine (Registry.unmarked_underlyingDevice _ _ _).bind fun disk => ?_
  dsimp only
  split
  · exact (FailsOnly.ok _).bind fun _ => .ok _
  · exact (Bundle.unmarked_onPartition t _).bind fun _ => .ok _

theorem perform_writeSeeds (m : Machine) : (writeSeeds env config request).perform m =
    match origin env config request m.files with
    | .error e => (.error e, m)
    | .ok (disk, base) =>
      let r := ((request.mergeInto base).store (partitionPath disk config.layout.seed)).perform m
      (r.1.map fun _ => disk, r.2) := by
  unfold writeSeeds origin systemDisk
  simp only [Action.perform_bind, Action.perform_ofExcept, Action.perform_get]
  cases request.validate with
  | error e => rfl
  | ok _ =>
    simp only [Action.ok_bind]
    cases (env.registry m.files).underlyingDevice (config.paths.anchor.getD env.program)
      config.paths.deviceRoot with
    | error e => rfl
    | ok disk =>
      simp only [Action.ok_bind]
      cases request.wipeSeeds with
      | true =>
        simp only [if_true, Action.perform_bind, Action.perform_pure]
        rcases ((request.mergeInto .empty).store (partitionPath disk config.layout.seed)).perform m
          with ⟨_ | _, m'⟩ <;> rfl
      | false =>
        simp only [Bool.false_eq_true, if_false, Bundle.load, Action.perform_bind,
          Action.perform_get, Action.perform_ofExcept]
        cases Bundle.onPartition m.files (partitionPath disk config.layout.seed) with
        | error e => rfl
        | ok base =>
          simp only [Action.ok_bind]
          rcases ((request.mergeInto base).store (partitionPath disk config.layout.seed)).perform m
            with ⟨_ | _, m'⟩ <;> rfl

theorem unmarked_writeSeeds : Action.FailsOnly Unmarked (writeSeeds env config request) := by
  intro m
  rw [perform_writeSeeds]
  have ho := @unmarked_origin env config request m.files
  cases hr : origin env config request m.files with
  | error e => exact .error (ho e hr)
  | ok r =>
    obtain ⟨disk, base⟩ := r
    simp only [Bundle.perform_store]
    refine .map ?_ _
    cases (request.mergeInto base).overwrite (partitionPath disk config.layout.seed) m.files with
    | error e => exact .error rfl
    | ok t =>
      cases (request.mergeInto base).toArchive.2 with
      | none => exact .ok _
      | some reason => exact .error rfl

/-- The machine after the seeds of a request have been written. -/
def rewritten (config : Config) (request : ResetRequest) (disk : String) (base : Bundle)
    (m : Machine) (t : FileTree) : Machine :=
  let partition := partitionPath disk config.layout.seed
  (m.record (.logged .info ((request.mergeInto base).writeText partition))).wrote partition t

@[simp] theorem files_rewritten (disk : String) (base : Bundle) (m : Machine) (t : FileTree) :
    (rewritten config request disk base m t).files = t := rfl

theorem still_record {v : Event} (h : ∀ call, v ≠ .ran call) (m : Machine) :
    m.Still (m.record v) := by
  refine ⟨rfl, ?_⟩
  cases v <;> simp_all [Machine.calls, Machine.record]

theorem calls_rewritten (disk : String) (base : Bundle) (m : Machine) (t : FileTree) :
    (rewritten config request disk base m t).calls = m.calls := by
  rw [rewritten, Machine.calls_wrote]
  exact (still_record (by simp) m).calls

theorem perform_writeSeeds_of_written (ho : origin env config request m.files = .ok (disk, base))
    (hw : (request.mergeInto base).overwrite (partitionPath disk config.layout.seed) m.files = .ok t) :
    (writeSeeds env config request).perform m =
      (match (request.mergeInto base).toArchive.2 with
        | none => .ok disk
        | some reason => .error (.system (.badArchive reason)),
      rewritten config request disk base m t) := by
  simp only [perform_writeSeeds, ho, Bundle.perform_store, hw]
  cases (request.mergeInto base).toArchive.2 <;> rfl

theorem writeSeeds_eq_ok (h : (writeSeeds env config request).perform m = (.ok disk, m')) :
    ∃ base t, origin env config request m.files = .ok (disk, base) ∧
      (request.mergeInto base).toArchive.2 = none ∧
      (request.mergeInto base).overwrite (partitionPath disk config.layout.seed) m.files = .ok t ∧
      m' = rewritten config request disk base m t := by
  rw [perform_writeSeeds] at h
  cases ho : origin env config request m.files with
  | error e => simp [ho] at h
  | ok r =>
    obtain ⟨disk', base⟩ := r
    simp only [ho, Bundle.perform_store] at h
    cases hw : (request.mergeInto base).overwrite (partitionPath disk' config.layout.seed) m.files with
    | error e => simp [hw, Except.map] at h
    | ok t =>
      simp only [hw] at h
      cases ha : (request.mergeInto base).toArchive.2 with
      | some reason => simp [ha, Except.map] at h
      | none =>
        simp only [ha, Except.map, Prod.mk.injEq, Except.ok.injEq] at h
        obtain ⟨rfl, rfl⟩ := h
        exact ⟨base, t, rfl, ha, hw, rfl⟩

/-- The three ways in which the seeds can fail to be written. Only the last one changes a file. -/
theorem writeSeeds_eq_error (h : (writeSeeds env config request).perform m = (.error e, m')) :
    (origin env config request m.files = .error e ∧ m' = m) ∨
    ∃ disk base, origin env config request m.files = .ok (disk, base) ∧
      ((∃ cause, (request.mergeInto base).overwrite (partitionPath disk config.layout.seed) m.files =
          .error cause ∧ m' = m.record (.logged .info ((request.mergeInto base).writeText
            (partitionPath disk config.layout.seed)))) ∨
        ∃ t, (request.mergeInto base).overwrite (partitionPath disk config.layout.seed) m.files =
          .ok t ∧ (request.mergeInto base).toArchive.2 ≠ none ∧
          m' = rewritten config request disk base m t) := by
  rw [perform_writeSeeds] at h
  cases ho : origin env config request m.files with
  | error e' =>
    simp only [ho, Prod.mk.injEq, Except.error.injEq] at h
    exact .inl ⟨h.1 ▸ rfl, h.2.symm⟩
  | ok r =>
    obtain ⟨disk, base⟩ := r
    simp only [ho, Bundle.perform_store] at h
    refine .inr ⟨disk, base, rfl, ?_⟩
    cases hw : (request.mergeInto base).overwrite (partitionPath disk config.layout.seed) m.files with
    | error cause =>
      simp only [hw, Prod.mk.injEq] at h
      exact .inl ⟨cause, rfl, h.2.symm⟩
    | ok t =>
      simp only [hw] at h
      cases ha : (request.mergeInto base).toArchive.2 with
      | none => simp [ha, Except.map] at h
      | some reason =>
        simp only [ha, Prod.mk.injEq] at h
        exact .inr ⟨t, rfl, by simp, h.2.symm⟩

theorem calls_writeSeeds_of_error (h : (writeSeeds env config request).perform m = (.error e, m')) :
    m'.calls = m.calls := by
  rcases writeSeeds_eq_error h with ⟨-, rfl⟩ | ⟨disk, base, -, ⟨cause, -, rfl⟩ | ⟨t, -, -, rfl⟩⟩
  · rfl
  · exact (still_record (by simp) m).calls
  · exact calls_rewritten disk base m t

/-! ### The steps that cannot be undone -/

variable (env config request) in
/-- What follows the write of the seeds. -/
def irreversible (disk : String) : Action Nat := do
  clearChip env request.allowChipFailure
  config.layout.resetTargets.forM fun index =>
    Action.marking "Deleting data partitions" (PartitionTable.delete env disk index)
  Install.finish config.delays.reset

theorem run_eq : run env config request =
    writeSeeds env config request >>= irreversible env config request := rfl

/-- The commands that a reset asks for, in this order. -/
def plan (config : Config) (disk : String) : List Command :=
  ⟨"tpm2_clear", []⟩ ::
    [config.layout.swap, config.layout.root, config.layout.localData].map fun index =>
      ⟨"sgdisk", ["-d", toString index, disk]⟩

/-- Whether a reset goes on after an attempt. -/
def passes (env : Environment) (request : ResetRequest) (a : Attempt) : Bool :=
  a.succeeds env || (a.command == clearCommand && request.allowChipFailure)

theorem deleteCommand_ne_clearCommand (disk : String) (index : Nat) :
    PartitionTable.deleteCommand disk index ≠ clearCommand := by
  simp [PartitionTable.deleteCommand, PartitionTable.tool, clearCommand]

theorem passes_deleteCommand (m : Machine) (disk : String) (index : Nat) :
    passes env request ⟨m, PartitionTable.deleteCommand disk index⟩ =
      Attempt.succeeds env ⟨m, PartitionTable.deleteCommand disk index⟩ := by
  simp [passes, deleteCommand_ne_clearCommand]

/-- The attempt to delete a partition. -/
def deletion (disk : String) (index : Nat) (m : Machine) : Attempt :=
  ⟨m.record (.logged .info s!"Deleting partition {index} on {disk}"),
    PartitionTable.deleteCommand disk index⟩

theorem perform_delete (disk : String) (index : Nat) (m : Machine) :
    (PartitionTable.delete env disk index).perform m =
      (((deletion disk index m).checked env).map fun _ => (), (deletion disk index m).after env) := by
  unfold PartitionTable.delete
  rw [Action.perform_bind_of_ok _ (Action.perform_logInfo _ m), Action.perform_bind,
    Action.perform_runChecked, deletion]
  cases Attempt.checked env ⟨_, PartitionTable.deleteCommand disk index⟩ <;> rfl

/-- Induction on the partitions: one deletion, then the others if it succeeded. -/
theorem deletions_follow {indices : List Nat} {r : Except Failure Unit}
    (h : (indices.forM fun index => Action.marking "Deleting data partitions"
      (PartitionTable.delete env disk index)).perform m = (r, m')) :
    ∃ as, Course env Machine.Still m as m' ∧
      Follows (passes env request) (indices.map (PartitionTable.deleteCommand disk)) as r.isOk ∧
      FailsOnly Marked r := by
  induction indices generalizing m with
  | nil =>
    cases h
    exact ⟨[], .refl _, .finished, .ok _⟩
  | cons index indices ih =>
    have hdelete := @perform_delete env disk index m
    have hpass : passes env request (deletion disk index m) =
        ((deletion disk index m).checked env).isOk := by
      rw [deletion, passes_deleteCommand, Attempt.isOk_checked]
    have hlog : m.Still (deletion disk index m).machine := still_record (by simp) m
    cases hc : (deletion disk index m).checked env with
    | error e =>
      rw [hc] at hdelete hpass
      rw [List.forM, Action.perform_bind_of_error _ (Action.perform_marking_of_error _ hdelete)] at h
      cases h
      exact ⟨[deletion disk index m], .quiet hlog (.ask _ (.refl _)), .stopped hpass,
        .error (Failure.isUntouched_mark _ e)⟩
    | ok o =>
      rw [hc] at hdelete hpass
      rw [List.forM, Action.perform_bind_of_ok _ (Action.perform_marking_of_ok _ hdelete)] at h
      obtain ⟨as, hcourse, hfollows, hmarked⟩ := ih h
      exact ⟨deletion disk index m :: as, .quiet hlog (.ask _ hcourse), .passed hpass hfollows, hmarked⟩

/-- The attempt to clear the security chip. -/
def clearing (m : Machine) : Attempt := ⟨m.record (.logged .info "Clearing TPM state"), clearCommand⟩

theorem passes_clearing (m : Machine) : passes env request (clearing m) =
    ((clearing m).succeeds env || request.allowChipFailure) := by
  simp [passes, clearing]

theorem clearChip_passes {r : Except Failure Unit}
    (h : (clearChip env request.allowChipFailure).perform m = (r, m')) :
    Course env Machine.Still m [clearing m] m' ∧ r.isOk = passes env request (clearing m) ∧
      FailsOnly Marked r := by
  have hlog : m.Still (clearing m).machine := still_record (by simp) m
  have hpass : passes env request (clearing m) =
      (((clearing m).checked env).isOk || request.allowChipFailure) := by
    rw [passes_clearing, Attempt.isOk_checked]
  have hrun : (Action.attempt (Action.runChecked env clearCommand)).perform
      (m.record (.logged .info "Clearing TPM state")) =
        (.ok ((clearing m).checked env), (clearing m).after env) := by
    rw [Action.perform_attempt, Action.perform_runChecked]
    rfl
  rw [clearChip, Action.perform_bind_of_ok _ (Action.perform_logInfo _ m),
    Action.perform_bind_of_ok _ hrun] at h
  rw [hpass]
  cases hc : (clearing m).checked env with
  | ok o =>
    simp only [hc, Action.perform_pure, Prod.mk.injEq] at h
    obtain ⟨rfl, rfl⟩ := h
    exact ⟨.quiet hlog (.ask _ (.refl _)), rfl, .ok _⟩
  | error e =>
    cases ha : request.allowChipFailure with
    | true =>
      simp only [hc, ha, if_true, Action.perform_logWarning, Prod.mk.injEq] at h
      obtain ⟨rfl, rfl⟩ := h
      exact ⟨.quiet hlog (.ask _ (.quiet (still_record (by simp) _) (.refl _))), rfl, .ok _⟩
    | false =>
      simp only [hc, ha, Bool.false_eq_true, if_false, Action.perform_throw, Prod.mk.injEq] at h
      obtain ⟨rfl, rfl⟩ := h
      exact ⟨.quiet hlog (.ask _ (.refl _)), rfl, .error (Failure.isUntouched_mark _ e)⟩

theorem finish_still (delay : Nat) (m : Machine) : ∃ m', m.Still m' ∧
    (Install.finish delay).perform m = (.ok delay, m') := by
  refine ⟨_, ?_, rfl⟩
  refine ⟨rfl, ?_⟩
  simp [Machine.calls, Machine.record]

/-- Everything after the write of the seeds keeps to the plan, and fails only with a mark. -/
theorem irreversible_follows {r : Except Failure Nat}
    (h : (irreversible env config request disk).perform m = (r, m')) :
    ∃ rest, Course env Machine.Still m (clearing m :: rest) m' ∧
      Follows (passes env request) (plan config disk) (clearing m :: rest) r.isOk ∧
      FailsOnly Marked r := by
  unfold irreversible at h
  rw [Action.perform_bind] at h
  rcases hclear : (clearChip env request.allowChipFailure).perform m with ⟨e | _, m₁⟩
  · obtain ⟨hcourse, hpass, hmarked⟩ := clearChip_passes hclear
    simp only [hclear, Prod.mk.injEq] at h
    obtain ⟨rfl, rfl⟩ := h
    exact ⟨[], hcourse, .stopped hpass.symm, .error (hmarked e rfl)⟩
  · obtain ⟨hcourse, hpass, -⟩ := clearChip_passes hclear
    simp only [hclear, Action.perform_bind] at h
    rcases hdelete : (config.layout.resetTargets.forM fun index =>
      Action.marking "Deleting data partitions" (PartitionTable.delete env disk index)).perform m₁
      with ⟨e | _, m₂⟩
    · obtain ⟨as, hcourse', hfollows, hmarked⟩ := @deletions_follow env request _ _ _ _ _ hdelete
      simp only [hdelete, Prod.mk.injEq] at h
      obtain ⟨rfl, rfl⟩ := h
      exact ⟨as, hcourse.append hcourse', .passed hpass.symm hfollows, .error (hmarked e rfl)⟩
    · obtain ⟨as, hcourse', hfollows, -⟩ := @deletions_follow env request _ _ _ _ _ hdelete
      obtain ⟨m₃, hstill, hfinish⟩ := finish_still config.delays.reset m₂
      simp only [hdelete, hfinish, Prod.mk.injEq] at h
      obtain ⟨rfl, rfl⟩ := h
      have hend := hcourse'.append (.quiet hstill (.refl _))
      rw [List.append_nil] at hend
      exact ⟨as, hcourse.append hend, .passed hpass.symm hfollows, .ok _⟩

/-- A run fails while the seeds are written, without a mark and before any tool is asked for; or the
seeds are on the disk, and the run goes on by the plan and can fail only with a mark. -/
theorem run_cases {r : Except Failure Nat}
    (h : (run env config request).perform m = (r, m')) :
    (∃ e, (writeSeeds env config request).perform m = (.error e, m') ∧ r = .error e ∧
      e.isUntouched = true) ∨
    ∃ disk base t rest, origin env config request m.files = .ok (disk, base) ∧
      (request.mergeInto base).toArchive.2 = none ∧
      (request.mergeInto base).overwrite (partitionPath disk config.layout.seed) m.files = .ok t ∧
      Course env Machine.Still (rewritten config request disk base m t)
        (clearing (rewritten config request disk base m t) :: rest) m' ∧
      Follows (passes env request) (plan config disk)
        (clearing (rewritten config request disk base m t) :: rest) r.isOk ∧
      FailsOnly Marked r := by
  rw [run_eq, Action.perform_bind] at h
  cases hw : (writeSeeds env config request).perform m with
  | mk r₁ m₁ =>
    cases r₁ with
    | error e =>
      simp only [hw, Prod.mk.injEq] at h
      obtain ⟨rfl, rfl⟩ := h
      have hunmarked := unmarked_writeSeeds m e (congrArg Prod.fst hw)
      exact .inl ⟨e, rfl, rfl, hunmarked⟩
    | ok disk =>
      simp only [hw] at h
      obtain ⟨base, t, ho, hwhole, ht, rfl⟩ := writeSeeds_eq_ok hw
      obtain ⟨rest, hcourse, hfollows, hmarked⟩ := irreversible_follows h
      exact .inr ⟨disk, base, t, rest, ho, hwhole, ht, hcourse, hfollows, hmarked⟩

/-! ### A small machine -/

/-- All tools succeed silently and change nothing. -/
def sampleEnvironment : Environment :=
  Script.environment { registry := fun _ => Registry.sample } "/usr/bin/strata"

def sampleFiles (content : ByteArray) : FileTree :=
  ⟨[(["dev"], .directory), (["dev", "vda2"], .file content 0o644)], []⟩

/-- A machine whose seed partition has a given content. -/
def sampleMachine (content : ByteArray) : Machine := ⟨sampleFiles content, [], []⟩

theorem onPartition_sample (content : ByteArray) :
    Bundle.onPartition (sampleFiles content) "/dev/vda2" = Bundle.ofBytes content := rfl

theorem partitionPath_sample : partitionPath "/dev/vda" 2 = "/dev/vda2" := by decide +kernel

theorem origin_sample {content : ByteArray} (hvalid : request.validate = .ok ())
    (hbase : Bundle.ofBytes content = .ok base) (hwipe : request.wipeSeeds = false) :
    origin sampleEnvironment {} request (sampleFiles content) = .ok ("/dev/vda", base) := by
  have hread := (onPartition_sample content).trans hbase
  rw [← partitionPath_sample] at hread
  unfold origin
  rw [hvalid, Action.ok_bind]
  change (Registry.sample.underlyingDevice "/usr/bin/strata" "/dev" >>= _) = _
  rw [Registry.underlyingDevice_sample, Action.ok_bind, hwipe]
  change (Bundle.onPartition (sampleFiles content) (partitionPath "/dev/vda" 2) >>= _) = _
  rw [hread]
  rfl

/-- A request for one seed is in order if the seed's name is. -/
theorem validate_sample {seed : String} (h : Seed.validateName seed = .ok ()) :
    ResetRequest.validate { seeds := Dict.ofList [(seed, "{}".toUTF8)] } = .ok () := by
  refine Action.forM_eq_ok.2 ?_
  intro e he
  obtain rfl := List.mem_singleton.1 he
  change (Seed.validateName seed >>= _) = _
  rw [h]
  exact Seed.validatePayload_object seed

theorem tool_sample (m : Machine) (c : Command) :
    sampleEnvironment.tool m c = some (.silent, m.files) := rfl

/-- No tool stops the small machine. -/
theorem isOk_irreversible_sample (m : Machine) :
    ((irreversible sampleEnvironment config request disk).perform m).1.isOk = true := by
  cases h : (irreversible sampleEnvironment config request disk).perform m with
  | mk r m' =>
    obtain ⟨rest, -, hfollows, -⟩ := irreversible_follows h
    cases hr : r.isOk with
    | true => rfl
    | false =>
      rw [hr] at hfollows
      obtain ⟨a, -, hfail⟩ := hfollows.last_fails
      have hpass : passes sampleEnvironment request a = true := by
        rw [passes, Attempt.succeeds, tool_sample]
        rfl
      rw [hpass] at hfail
      cases hfail

theorem overwrite_sample (b : Bundle) (content : ByteArray) :
    b.overwrite (partitionPath "/dev/vda" 2) (sampleFiles content) =
      .ok (sampleFiles b.toArchive.1) := by
  rw [partitionPath_sample]
  rfl

end Reset

end Groundwork
