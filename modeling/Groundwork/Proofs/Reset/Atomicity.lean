import Groundwork.Proofs.Reset.Steps

/-! Failures of a factory reset without a mark. They come before any tool is asked for; what they
leave on the disk depends on the names that have to be archived. -/
namespace Groundwork.Reset

variable {env : Environment} {config : Config} {request : ResetRequest} {m m' : Machine}
  {t : FileTree} {base : Bundle} {disk : String} {e : Failure}

/-- Whether the write of the seeds leaves the files alone when it fails: no file name breaks it off,
or the partition holds the broken archive already. -/
def LeavesNoTrace (env : Environment) (config : Config) (request : ResetRequest) (t : FileTree) :
    Prop :=
  ∀ disk base, origin env config request t = .ok (disk, base) →
    ∀ place t₁, t.create (partitionPath disk config.layout.seed) = .ok (place, t₁) →
      (∀ file ∈ (request.mergeInto base).files.keys, (Archive.storedName file).isOk) ∨
        t.read (partitionPath disk config.layout.seed) = .ok (request.mergeInto base).toArchive.1

/-- Only the seeds come before the steps that cannot be undone, and these mark all failures. -/
theorem writeSeeds_of_untouched (h : (run env config request).perform m = (.error e, m'))
    (he : e.isUntouched = true) : (writeSeeds env config request).perform m = (.error e, m') := by
  rcases run_cases h with ⟨e', hwrite, he', -⟩ | ⟨disk, base, t, rest, -, -, -, -, -, hmarked⟩
  · cases he'
    exact hwrite
  · have hmark : e.isUntouched = false := hmarked e rfl
    rw [hmark] at he
    cases he

theorem leavesNoTrace_of_broken {t' : FileTree}
    (ho : origin env config request t = .ok (disk, base))
    (hw : (request.mergeInto base).overwrite (partitionPath disk config.layout.seed) t = .ok t')
    (hbroken : (request.mergeInto base).toArchive.2 ≠ none) :
    (∀ place, t'.node? place = t.node? place) ↔ LeavesNoTrace env config request t := by
  obtain ⟨place, t₁, hc, rfl⟩ := Bundle.overwrite_eq_ok.1 hw
  obtain ⟨hr, hl⟩ := FileTree.refilled_of_create hc (request.mergeInto base).toArchive.1
  rw [hr.unchanged_iff hl]
  constructor
  · intro hread disk' base' ho' _ _ _
    rw [ho] at ho'
    cases ho'
    exact .inr hread
  · intro hclean
    rcases hclean disk base ho place t₁ hc with hnames | hread
    · exact (hbroken (Bundle.toArchive_eq_none_iff.2 hnames)).elim
    · exact hread

/-- A reset that fails without a mark has run no tool and armed no reboot, and has changed no file
but the seed partition. That one is as before if and only if the write leaves no trace. -/
theorem untouched_failure (h : (run env config request).perform m = (.error e, m'))
    (he : e.isUntouched = true) :
    (∃ events, m'.history = m.history ++ events ∧
      ∀ v ∈ events, (∃ text, v = .logged .info text) ∨ ∃ path, v = .wrote path) ∧
    m'.armed = m.armed ∧
    (∀ place, (∀ disk base, origin env config request m.files = .ok (disk, base) →
        m.files.locate (partitionPath disk config.layout.seed) true ≠ .ok place) →
      m'.files.node? place = m.files.node? place) ∧
    ((∀ place, m'.files.node? place = m.files.node? place) ↔
      LeavesNoTrace env config request m.files) := by
  rcases writeSeeds_eq_error (writeSeeds_of_untouched h he) with
    ⟨ho, rfl⟩ | ⟨disk, base, ho, ⟨cause, hw, rfl⟩ | ⟨t, hw, hbroken, rfl⟩⟩
  · refine ⟨⟨[], by simp⟩, rfl, fun _ _ => rfl, ⟨fun _ disk base ho' => ?_, fun _ _ => rfl⟩⟩
    rw [ho] at ho'
    cases ho'
  · refine ⟨⟨_, rfl, by simp⟩, rfl, fun _ _ => rfl, ⟨fun _ disk' base' ho' place t₁ hc => ?_,
      fun _ _ => rfl⟩⟩
    -- a partition that can be opened is written, and this one was not
    rw [ho] at ho'
    cases ho'
    rw [Bundle.overwrite_eq_ok.2 ⟨place, t₁, hc, rfl⟩] at hw
    cases hw
  · refine ⟨⟨[_, _], List.append_assoc _ _ _, by simp⟩, rfl, ?_, leavesNoTrace_of_broken ho hw hbroken⟩
    intro place hother
    obtain ⟨written, t₁, hc, rfl⟩ := Bundle.overwrite_eq_ok.1 hw
    obtain ⟨hr, hl⟩ := FileTree.refilled_of_create hc (request.mergeInto base).toArchive.1
    refine hr.others place ?_
    rintro rfl
    exact hother disk base ho hl

/-! ### A name that is too long -/

/-- The seeds that are lost below. -/
def oldSeeds : Bundle := ⟨Dict.ofList [("network.yaml", "{}".toUTF8)]⟩

def longName : String := String.ofList (List.replicate 96 'a')

/-- A request in order, for a seed whose file name has one byte too many for an archive. -/
def longRequest : ResetRequest := { seeds := Dict.ofList [(longName, "{}".toUTF8)] }

theorem ofBytes_oldSeeds : Bundle.ofBytes oldSeeds.toArchive.1 = .ok oldSeeds := by
  have hkeys : oldSeeds.files.keys = ["network.yaml"] := by decide +kernel
  have hkept : ∀ file ∈ oldSeeds.files.keys, Archive.storedName file = .ok file := by
    rw [hkeys, List.forall_mem_singleton]
    exact Action.eq_ok_of_toOption (by decide +kernel)
  have hwhole : oldSeeds.toArchive.2 = none := by
    rw [Bundle.toArchive_eq_none_iff]
    intro file hfile
    rw [hkept file hfile]
    rfl
  have harchive : oldSeeds.toArchive = (oldSeeds.toArchive.1, none) := by rw [← hwhole]
  refine (Bundle.ofBytes_toArchive_eq_self_iff harchive ?_).2 hkept
  rw [Archive.size_write harchive]
  decide

theorem validate_longRequest : longRequest.validate = .ok () :=
  validate_sample (Action.eq_ok_of_toOption (by decide +kernel))

theorem archive_longRequest : ∃ reason,
    (longRequest.mergeInto oldSeeds).toArchive = (Archive.ending, some reason) := by
  have hentries : (longRequest.mergeInto oldSeeds).files.entries =
      [(longName ++ ".json", "{}".toUTF8), ("network.yaml", "{}".toUTF8)] := by decide +kernel
  have hname : (Archive.storedName (longName ++ ".json")).isOk = false := by decide +kernel
  rw [Bundle.toArchive, hentries, Archive.write, Archive.append]
  cases hm : Archive.member (longName ++ ".json") "{}".toUTF8 with
  | error reason => exact ⟨reason, by simp⟩
  | ok bytes =>
    rw [← @Archive.member_isOk "{}".toUTF8, hm] at hname
    cases hname

theorem ofBytes_ending : Bundle.ofBytes Archive.ending = .ok .empty := by
  have hbytes : Archive.ending.toList = Archive.joinedBytes [] ++ Archive.ending.toList := by
    rw [Archive.joinedBytes, List.flatMap_nil, List.nil_append]
  exact @Bundle.ofBytes_joinedBytes _ [] _ (by simp) hbytes Archive.zeros_prefix_ending (by decide)

theorem run_longRequest : ∃ e m',
    (run sampleEnvironment {} longRequest).perform (sampleMachine oldSeeds.toArchive.1) =
      (.error e, m') ∧ e.isUntouched = true ∧ m'.files = sampleFiles Archive.ending := by
  obtain ⟨reason, harchive⟩ := archive_longRequest
  have ho : origin sampleEnvironment {} longRequest (sampleMachine oldSeeds.toArchive.1).files =
      .ok ("/dev/vda", oldSeeds) := origin_sample validate_longRequest ofBytes_oldSeeds rfl
  have hw := overwrite_sample (longRequest.mergeInto oldSeeds) oldSeeds.toArchive.1
  have hwrite := perform_writeSeeds_of_written ho hw
  rw [harchive] at hwrite
  rw [run_eq, Action.perform_bind_of_error _ hwrite]
  exact ⟨_, _, rfl, rfl, rfl⟩

theorem node?_longRequest : (sampleFiles Archive.ending).node? ["dev", "vda2"] ≠
    (sampleFiles oldSeeds.toArchive.1).node? ["dev", "vda2"] := by
  intro hsame
  have hnode : some (Node.file Archive.ending 0o644) =
    some (Node.file oldSeeds.toArchive.1 0o644) := hsame
  have hold := ofBytes_oldSeeds
  rw [← (Node.file.inj (Option.some.inj hnode)).1, ofBytes_ending] at hold
  have hcount := congrArg (·.files.keys.length) (Except.ok.inj hold)
  cases hcount

/-- The failure has no mark, and the seeds are gone. -/
theorem long_name_loses_seeds : ∃ e m',
    (run sampleEnvironment {} longRequest).perform (sampleMachine oldSeeds.toArchive.1) =
      (.error e, m') ∧ e.isUntouched = true ∧
    Bundle.onPartition (sampleMachine oldSeeds.toArchive.1).files "/dev/vda2" = .ok oldSeeds ∧
    Bundle.onPartition m'.files "/dev/vda2" = .ok .empty ∧
    ¬ ∀ place, m'.files.node? place = (sampleMachine oldSeeds.toArchive.1).files.node? place := by
  obtain ⟨e, m', hrun, he, hfiles⟩ := run_longRequest
  refine ⟨e, m', hrun, he, (onPartition_sample _).trans ofBytes_oldSeeds, ?_, ?_⟩
  · rw [hfiles, onPartition_sample, ofBytes_ending]
  · intro hsame
    have hnode := hsame ["dev", "vda2"]
    rw [hfiles] at hnode
    exact node?_longRequest hnode

theorem untouched_failure_longRequest : ∃ e m',
    (run sampleEnvironment {} longRequest).perform (sampleMachine oldSeeds.toArchive.1) =
      (.error e, m') ∧ e.isUntouched = true ∧ m'.armed = [] ∧
    ¬ LeavesNoTrace sampleEnvironment {} longRequest (sampleFiles oldSeeds.toArchive.1) := by
  obtain ⟨e, m', hrun, he, hfiles⟩ := run_longRequest
  obtain ⟨-, harmed, -, htrace⟩ := untouched_failure hrun he
  refine ⟨e, m', hrun, he, harmed, ?_⟩
  intro hclean
  have hsame := htrace.2 hclean ["dev", "vda2"]
  rw [hfiles] at hsame
  exact node?_longRequest hsame

end Groundwork.Reset
