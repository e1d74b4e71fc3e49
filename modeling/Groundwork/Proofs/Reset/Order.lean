import Groundwork.Proofs.Reset.Steps

/-! The order of the steps of a factory reset that cannot be undone. -/
namespace Groundwork

variable {env : Environment} {config : Config} {request : ResetRequest} {m m' : Machine}
  {base : Bundle} {disk : String} {r : Except Failure Nat}

/-- A deletion is aimed at one partition. -/
theorem PartitionTable.deleteCommand_inj {i j : Nat}
    (h : deleteCommand disk i = deleteCommand disk j) : i = j := by
  have harguments : ["-d", i.repr, disk] = ["-d", j.repr, disk] := congrArg (·.arguments) h
  exact Text.eq_of_repr_eq (by simpa using harguments)

/-- An accepted configuration lets a reset delete no partition that it needs. -/
theorem Config.resetTargets_of_validate (h : config.validate = .ok ()) :
    ∀ index ∈ config.layout.resetTargets,
      index ∉ [0, config.layout.boot, config.layout.seed] := by
  have hlayout : config.layout.validate = .ok () := by
    cases hl : config.layout.validate with
    | ok _ => rfl
    | error e => simp [validate, hl, bind, Except.bind] at h
  unfold Layout.validate at hlayout
  split at hlayout
  · cases hlayout
  · split at hlayout
    · cases hlayout
    · split at hlayout
      · cases hlayout
      · next hnone =>
        intro index hindex
        have hkept := List.find?_eq_none.1 hnone index hindex
        simpa [Layout.isPreserved, and_assoc] using hkept

namespace Reset

/-- A run that has come to the steps that cannot be undone: the attempt to clear the security chip,
and the attempts after it. -/
structure Ordered (env : Environment) (config : Config) (request : ResetRequest) (m m' : Machine)
    (r : Except Failure Nat) (disk : String) (base : Bundle) (first : Attempt)
    (rest : List Attempt) : Prop where
  origin : origin env config request m.files = .ok (disk, base)
  /-- The run writes the seeds and then does nothing but make the attempts. -/
  course : ∃ m₁, (writeSeeds env config request).perform m = (.ok disk, m₁) ∧
    Course env Machine.Still m₁ (first :: rest) m'
  /-- The seeds can all be archived. -/
  whole : (request.mergeInto base).toArchive.2 = none
  /-- Before any tool is asked for, the partition holds the whole archive. -/
  seeded : first.machine.files.read (partitionPath disk config.layout.seed) =
    .ok (request.mergeInto base).toArchive.1
  asked : (first :: rest).map (·.command) <+: plan config disk
  /-- The tools that are installed have run, and no other ones. -/
  ran : m'.calls = m.calls ++ (first :: rest).filterMap (Attempt.call? env)
  stopsAtChip : rest = [] ↔ first.succeeds env = false ∧ request.allowChipFailure = false
  stopsAtFailure : ∀ a ∈ rest.dropLast, a.succeeds env = true
  aim : ∀ a ∈ rest, ∀ index ∈ [0, config.layout.boot, config.layout.seed],
    a.command ≠ ⟨"sgdisk", ["-d", toString index, disk]⟩
  finished : r.isOk = true ↔ rest.length = 3 ∧ ∀ a ∈ rest, a.succeeds env = true
  failed : ∀ e, r = .error e → e.isUntouched = false ∧
    ∃ last, (first :: rest).getLast? = some last ∧ last.succeeds env = false

/-- The deletions follow their part of the plan by their own success. -/
theorem deletions_succeed {indices : List Nat} {as : List Attempt} {done : Bool}
    (h : Follows (passes env request) (indices.map (PartitionTable.deleteCommand disk)) as done) :
    Follows (Attempt.succeeds env) (indices.map (PartitionTable.deleteCommand disk)) as done := by
  refine h.congr ?_
  rintro ⟨m, c⟩ hc
  obtain ⟨index, -, rfl⟩ := List.mem_map.1 hc
  exact passes_deleteCommand m disk index

theorem ordered_of_follows {t : FileTree} {rest : List Attempt}
    (hvalid : config.validate = .ok ()) (ho : origin env config request m.files = .ok (disk, base))
    (hwhole : (request.mergeInto base).toArchive.2 = none)
    (ht : (request.mergeInto base).overwrite (partitionPath disk config.layout.seed) m.files = .ok t)
    (hcourse : Course env Machine.Still (rewritten config request disk base m t)
      (clearing (rewritten config request disk base m t) :: rest) m')
    (hfollows : Follows (passes env request) (plan config disk)
      (clearing (rewritten config request disk base m t) :: rest) r.isOk)
    (hmarked : FailsOnly Marked r) :
    Ordered env config request m m' r disk base (clearing (rewritten config request disk base m t))
      rest := by
  have hran := hcourse.calls fun _ _ h => h.calls
  rw [calls_rewritten] at hran
  have hwrite := perform_writeSeeds_of_written ho ht
  rw [hwhole] at hwrite
  have hasked := hfollows.isPrefix
  obtain ⟨first, others, hsplit, -, hcases⟩ := hfollows.of_cons
  obtain ⟨rfl, rfl⟩ := List.cons.inj hsplit
  rw [passes_clearing] at hcases
  rcases hcases with ⟨hstop, rfl, hdone⟩ | ⟨hpass, hrest⟩
  · -- the chip was not cleared, and that is not allowed
    obtain ⟨hfail, hallow⟩ := Bool.or_eq_false_iff.1 hstop
    exact {
      origin := ho, course := ⟨_, hwrite, hcourse⟩, whole := hwhole
      seeded := Bundle.read_overwrite ht, asked := hasked, ran := hran
      stopsAtChip := by simp [hfail, hallow]
      stopsAtFailure := by simp
      aim := by simp
      finished := by simp [hdone]
      failed := fun e he => ⟨hmarked e he, _, rfl, hfail⟩ }
  · have hdeletions := deletions_succeed hrest
    have hne : rest ≠ [] := by
      obtain ⟨a, as, rfl, -⟩ := hdeletions.of_cons
      exact List.cons_ne_nil a as
    exact {
      origin := ho, course := ⟨_, hwrite, hcourse⟩, whole := hwhole
      seeded := Bundle.read_overwrite ht, asked := hasked, ran := hran
      stopsAtChip := by
        constructor
        · intro hnil
          exact (hne hnil).elim
        · rintro ⟨hfail, hallow⟩
          rw [hfail, hallow] at hpass
          cases hpass
      stopsAtFailure := hdeletions.passes_of_mem_dropLast
      aim := by
        intro a ha index hkept haimed
        have hmem := hdeletions.isPrefix.subset (List.mem_map.2 ⟨a, ha, rfl⟩)
        obtain ⟨target, htarget, hcommand⟩ := List.mem_map.1 hmem
        rw [haimed] at hcommand
        rw [← PartitionTable.deleteCommand_inj hcommand] at hkept
        exact Config.resetTargets_of_validate hvalid target htarget hkept
      finished := hdeletions.done_iff
      failed := by
        rintro e rfl
        obtain ⟨last, hlast, hfail⟩ := hdeletions.last_fails
        obtain ⟨a, as, rfl⟩ := List.exists_cons_of_ne_nil hne
        exact ⟨hmarked e rfl, last, by rwa [List.getLast?_cons_cons], hfail⟩ }

/-- For every answer of the tools, a reset of an accepted configuration has kept to the order, unless
the seeds could not be written: then it has asked for no tool. -/
theorem run_ordered (hvalid : config.validate = .ok ())
    (h : (run env config request).perform m = (r, m')) :
    (m'.calls = m.calls ∧ ∃ e, r = .error e ∧ e.isUntouched = true ∧
      (writeSeeds env config request).perform m = (.error e, m')) ∨
      ∃ disk base first rest, Ordered env config request m m' r disk base first rest := by
  rcases run_cases h with ⟨e, hw, rfl, he⟩ |
    ⟨disk, base, t, rest, ho, hwhole, ht, hcourse, hfollows, hmarked⟩
  · exact .inl ⟨calls_writeSeeds_of_error hw, e, rfl, he, hw⟩
  · exact .inr ⟨disk, base, _, rest,
      ordered_of_follows hvalid ho hwhole ht hcourse hfollows hmarked⟩

theorem run_ordered_sample : ∃ r m',
    (run sampleEnvironment {} {}).perform (sampleMachine .empty) = (r, m') ∧ r.isOk = true ∧
    ∃ disk base first rest,
      Ordered sampleEnvironment {} {} (sampleMachine .empty) m' r disk base first rest := by
  have hok : ((run sampleEnvironment {} {}).perform (sampleMachine .empty)).1.isOk = true := by
    decide +kernel
  cases hrun : (run sampleEnvironment {} {}).perform (sampleMachine .empty) with
  | mk r m' =>
    rw [hrun] at hok
    refine ⟨r, m', rfl, hok, ?_⟩
    have hvalid : Config.validate {} = .ok () := rfl
    rcases run_ordered hvalid hrun with ⟨-, e, rfl, -⟩ | hordered
    · cases hok
    · exact hordered

/-- The small machine without the tool for the security chip. -/
def chiplessEnvironment : Environment :=
  Script.environment { registry := fun _ => Registry.sample, missing := ["tpm2_clear"] }
    "/usr/bin/strata"

/-- A tool that is not installed is asked for and not run, so what is run need not be a first part of
the plan. -/
theorem chipless_commands :
    ((run chiplessEnvironment {} { allowChipFailure := true }).perform
      (sampleMachine .empty)).2.commands =
        [9, 10, 11].map (PartitionTable.deleteCommand "/dev/vda") ∧
    ¬ [9, 10, 11].map (PartitionTable.deleteCommand "/dev/vda") <+: plan {} "/dev/vda" := by
  decide +kernel

end Reset

end Groundwork
