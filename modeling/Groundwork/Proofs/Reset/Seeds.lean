import Groundwork.Proofs.Reset.Steps

/-! The seeds after a factory reset. Those of the request are on the disk with their payloads; those
that stay are there under their names if and only if an archive keeps these names. -/
namespace Groundwork

variable {env : Environment} {config : Config} {request : ResetRequest} {m m' : Machine}
  {t : FileTree} {base : Bundle} {disk partition file : String} {archive : ByteArray}
  {r : Except Failure Nat} {as : List Attempt}

namespace ResetRequest

theorem mem_keys_mergeInto : file ∈ (request.mergeInto base).files.keys ↔
    (∃ seed ∈ request.seeds.keys, file = Seed.fileName seed "json") ∨
      (file ∈ base.files.keys ∧ ∀ seed ∈ request.seeds.keys, file ∉ Bundle.variants seed) := by
  have hmerged := request.replaces_mergeInto base
  constructor
  · intro hfile
    obtain ⟨content, hcontent⟩ := Dict.mem_keys.1 hfile
    by_cases hrequested : ∃ seed ∈ request.seeds.keys, file ∈ Bundle.variants seed
    · obtain ⟨seed, hseed, hmem⟩ := hrequested
      refine .inl ⟨seed, hseed, ?_⟩
      apply Decidable.byContradiction
      intro hother
      rw [hmerged.variants seed hseed file hmem hother] at hcontent
      cases hcontent
    · have hothers : ∀ seed ∈ request.seeds.keys, file ∉ Bundle.variants seed :=
        fun seed hseed hmem => hrequested ⟨seed, hseed, hmem⟩
      rw [hmerged.others file hothers] at hcontent
      exact .inr ⟨Dict.mem_keys.2 ⟨content, hcontent⟩, hothers⟩
  · rintro (⟨seed, hseed, rfl⟩ | ⟨hfile, hothers⟩)
    · obtain ⟨payload, hpayload⟩ := Dict.mem_keys.1 hseed
      exact Dict.mem_keys.2 ⟨payload, hmerged.payload seed payload hpayload⟩
    · obtain ⟨content, hcontent⟩ := Dict.mem_keys.1 hfile
      rw [← hmerged.others file hothers] at hcontent
      exact Dict.mem_keys.2 ⟨content, hcontent⟩

theorem validateName_of_mem_keys (h : request.validate = .ok ()) {seed : String}
    (hseed : seed ∈ request.seeds.keys) : Seed.validateName seed = .ok () := by
  obtain ⟨e, he, rfl⟩ := List.mem_map.1 hseed
  have hchecked := Action.forM_eq_ok.1 h e he
  cases hname : Seed.validateName e.1 with
  | ok _ => rfl
  | error f => simp [hname, bind, Except.bind] at hchecked

end ResetRequest

namespace Reset

/-- The names of the files that stay beside those of the request are kept by an archive. -/
def KeepsNames (request : ResetRequest) (base : Bundle) : Prop :=
  ∀ file ∈ base.files.keys, (∀ seed ∈ request.seeds.keys, file ∉ Bundle.variants seed) →
    Archive.storedName file = .ok file

/-- The names of the request's own files are kept whenever the write does not break off. -/
theorem keepsNames_iff (hvalid : request.validate = .ok ())
    (hwhole : (request.mergeInto base).toArchive.2 = none) : KeepsNames request base ↔
      ∀ file ∈ (request.mergeInto base).files.keys, Archive.storedName file = .ok file := by
  rw [Bundle.toArchive_eq_none_iff] at hwhole
  constructor
  · intro hkept file hfile
    rcases ResetRequest.mem_keys_mergeInto.1 hfile with ⟨seed, hseed, rfl⟩ | ⟨hold, hothers⟩
    · have hname := ResetRequest.validateName_of_mem_keys hvalid hseed
      exact Seed.storedName_fileName hname (hwhole _ hfile) (by decide)
    · exact hkept file hold hothers
  · intro hkept file hfile hothers
    exact hkept file (ResetRequest.mem_keys_mergeInto.2 (.inr ⟨hfile, hothers⟩))

theorem validate_of_origin (h : origin env config request t = .ok (disk, base)) :
    request.validate = .ok () := by
  cases hv : request.validate with
  | ok _ => rfl
  | error e => simp [origin, hv, bind, Except.bind] at h

/-- What is on the seed partition stays there while tools run that leave it alone. -/
theorem read_of_course (hcourse : Course env Machine.Still m as m')
    (htools : ∀ a ∈ as, ∀ o t, env.tool a.machine a.command = some (o, t) →
      t.read partition = a.machine.files.read partition)
    (hread : m.files.read partition = .ok archive) : m'.files.read partition = .ok archive := by
  refine hcourse.files (Q := fun t => t.read partition = .ok archive) (fun _ _ h => h.files) ?_ hread
  intro a ha o t htool hm
  rw [htools a ha o t htool, hm]

theorem replaces_read_iff (hvalid : request.validate = .ok ())
    (hwhole : (request.mergeInto base).toArchive = (archive, none)) (hsize : archive.size < 2 ^ 64)
    (hread : t.read partition = .ok archive) :
    (∃ after, Bundle.onPartition t partition = .ok after ∧ request.Replaces base after) ↔
      KeepsNames request base := by
  have hbytes : Bundle.onPartition t partition = Bundle.ofBytes archive := by
    rw [Bundle.onPartition, hread]
    rfl
  rw [hbytes, keepsNames_iff hvalid (congrArg Prod.snd hwhole),
    ← Bundle.ofBytes_toArchive_eq_self_iff hwhole hsize]
  constructor
  · rintro ⟨after, hafter, hreplaces⟩
    rw [hafter, ResetRequest.replaces_iff.1 hreplaces]
  · intro hback
    exact ⟨_, hback, request.replaces_mergeInto base⟩

/-- Whether the tools that a reset asks for leave the seed partition alone. -/
def LeavesSeeds (env : Environment) (config : Config) : Prop :=
  ∀ disk, ∀ c ∈ plan config disk, ∀ m o t, env.tool m c = some (o, t) →
    t.read (partitionPath disk config.layout.seed) =
      m.files.read (partitionPath disk config.layout.seed)

theorem read_of_run (h : (run env config request).perform m = (r, m'))
    (hpast : FailsOnly Marked r) (htools : LeavesSeeds env config) :
    ∃ disk base archive, origin env config request m.files = .ok (disk, base) ∧
      (request.mergeInto base).toArchive = (archive, none) ∧
      m'.files.read (partitionPath disk config.layout.seed) = .ok archive := by
  rcases run_cases h with ⟨e, -, rfl, he⟩ |
    ⟨disk, base, t, rest, ho, hwhole, ht, hcourse, hfollows, -⟩
  · rw [hpast e rfl] at he
    cases he
  · refine ⟨disk, base, (request.mergeInto base).toArchive.1, ho, by rw [← hwhole], ?_⟩
    refine read_of_course hcourse ?_ (Bundle.read_overwrite ht)
    intro a ha
    exact htools disk a.command
      (hfollows.isPrefix.subset (List.mem_map.2 ⟨a, ha, rfl⟩)) a.machine

/-- After a reset that came past the write of the seeds, the partition reads as the files of the
merged bundle under their stored names. That is what the request asks for if and only if the names
of the files that stay are kept. Places on a partition are numbers of 64 bits, so no archive is
larger. -/
theorem seeds_after_run (h : (run env config request).perform m = (r, m'))
    (hpast : ∀ e, r = .error e → e.isUntouched = false) (htools : LeavesSeeds env config)
    (hsize : ∀ disk base, origin env config request m.files = .ok (disk, base) →
      (request.mergeInto base).toArchive.1.size < 2 ^ 64) :
    ∃ disk base, origin env config request m.files = .ok (disk, base) ∧
      (∃ ms, (request.mergeInto base).files.entries.mapM Archive.stored = .ok ms ∧
        Bundle.onPartition m'.files (partitionPath disk config.layout.seed) =
          .ok (Bundle.ofMembers ms)) ∧
      ((∃ after, Bundle.onPartition m'.files (partitionPath disk config.layout.seed) = .ok after ∧
        request.Replaces base after) ↔ KeepsNames request base) := by
  obtain ⟨disk, base, archive, ho, harchive, hread⟩ := read_of_run h hpast htools
  have hbound := hsize disk base ho
  rw [harchive] at hbound
  obtain ⟨ms, hms, hback⟩ := Bundle.ofBytes_toArchive harchive hbound List.prefix_rfl
  refine ⟨disk, base, ho, ⟨ms, hms, ?_⟩,
    replaces_read_iff (validate_of_origin ho) harchive hbound hread⟩
  rw [Bundle.onPartition, hread]
  exact hback

/-! ### A name that is not kept -/

/-- A request in order for one seed. -/
def networkRequest : ResetRequest := { seeds := Dict.ofList [("network", "{}".toUTF8)] }

/-- An archive as other tools write it, with a name that begins with a dot. -/
def dottedArchive : ByteArray :=
  (Archive.header [] "./network.yaml".toUTF8.toList "{}".toUTF8.size).toByteArray ++ "{}".toUTF8 ++
    Archive.zeros (Archive.padded "{}".toUTF8.size - "{}".toUTF8.size) ++ Archive.ending

def dottedSeeds : Bundle := ⟨Dict.ofList [("./network.yaml", "{}".toUTF8)]⟩

theorem validate_networkRequest : networkRequest.validate = .ok () :=
  validate_sample (Action.eq_ok_of_toOption (by decide +kernel))

theorem ofBytes_dottedArchive : Bundle.ofBytes dottedArchive = .ok dottedSeeds :=
  @Bundle.ofBytes_rawArchive [("./network.yaml", "{}".toUTF8)] (by decide) (by decide)

theorem whole_networkRequest : (networkRequest.mergeInto dottedSeeds).toArchive.2 = none := by
  rw [Bundle.toArchive_eq_none_iff]
  decide +kernel

theorem size_networkRequest : (networkRequest.mergeInto dottedSeeds).toArchive.1.size < 2 ^ 64 := by
  have harchive : (networkRequest.mergeInto dottedSeeds).toArchive =
      ((networkRequest.mergeInto dottedSeeds).toArchive.1, none) := by
    rw [← whole_networkRequest]
  rw [Archive.size_write harchive]
  decide +kernel

theorem origin_networkRequest :
    origin sampleEnvironment {} networkRequest (sampleMachine dottedArchive).files =
      .ok ("/dev/vda", dottedSeeds) :=
  origin_sample validate_networkRequest ofBytes_dottedArchive rfl

theorem run_networkRequest : ((run sampleEnvironment {} networkRequest).perform
    (sampleMachine dottedArchive)).1.isOk = true := by
  have hw := overwrite_sample (networkRequest.mergeInto dottedSeeds) dottedArchive
  have hwrite := perform_writeSeeds_of_written origin_networkRequest hw
  simp only [whole_networkRequest] at hwrite
  rw [run_eq, Action.perform_bind_of_ok _ hwrite]
  exact isOk_irreversible_sample _

theorem leavesSeeds_sample : LeavesSeeds sampleEnvironment config := by
  intro disk c hc m o t htool
  rw [tool_sample] at htool
  cases htool
  rfl

theorem not_keepsNames_dottedSeeds : ¬ KeepsNames networkRequest dottedSeeds := by
  intro hkeeps
  have hkept := hkeeps "./network.yaml" (by decide +kernel) (by decide +kernel)
  have hstored : Archive.storedName "./network.yaml" = .ok "network.yaml" :=
    Action.eq_ok_of_toOption (by decide +kernel)
  rw [hstored] at hkept
  have hname := Except.ok.inj hkept
  revert hname
  decide

/-- The old file of the seed comes back under its plain name, beside the new one. -/
theorem dotted_name_comes_back : ∃ r m',
    (run sampleEnvironment {} networkRequest).perform (sampleMachine dottedArchive) = (r, m') ∧
    r.isOk = true ∧
    Bundle.onPartition (sampleMachine dottedArchive).files "/dev/vda2" = .ok dottedSeeds ∧
    ¬ ∃ after, Bundle.onPartition m'.files "/dev/vda2" = .ok after ∧
      networkRequest.Replaces dottedSeeds after := by
  have hok := run_networkRequest
  cases hrun : (run sampleEnvironment {} networkRequest).perform (sampleMachine dottedArchive) with
  | mk r m' =>
    rw [hrun] at hok
    refine ⟨r, m', rfl, hok, (onPartition_sample _).trans ofBytes_dottedArchive, ?_⟩
    have hpast : ∀ e, r = .error e → e.isUntouched = false := by
      rintro e rfl
      cases hok
    obtain ⟨disk, base, archive, ho, harchive, hread⟩ := read_of_run hrun hpast leavesSeeds_sample
    rw [origin_networkRequest] at ho
    cases ho
    have hread' : m'.files.read (partitionPath "/dev/vda" 2) = .ok archive := hread
    rw [partitionPath_sample] at hread'
    have hsize := size_networkRequest
    rw [harchive] at hsize
    rw [replaces_read_iff validate_networkRequest harchive hsize hread']
    exact not_keepsNames_dottedSeeds

theorem seeds_after_networkRequest : ∃ r m',
    (run sampleEnvironment {} networkRequest).perform (sampleMachine dottedArchive) = (r, m') ∧
    r.isOk = true ∧ ∃ disk base,
      origin sampleEnvironment {} networkRequest (sampleFiles dottedArchive) = .ok (disk, base) ∧
      ((∃ after, Bundle.onPartition m'.files (partitionPath disk 2) = .ok after ∧
        networkRequest.Replaces base after) ↔ KeepsNames networkRequest base) := by
  have hok := run_networkRequest
  cases hrun : (run sampleEnvironment {} networkRequest).perform (sampleMachine dottedArchive) with
  | mk r m' =>
    rw [hrun] at hok
    have hpast : ∀ e, r = .error e → e.isUntouched = false := by
      rintro e rfl
      cases hok
    have hsize : ∀ disk base, origin sampleEnvironment {} networkRequest
        (sampleMachine dottedArchive).files = .ok (disk, base) →
        (networkRequest.mergeInto base).toArchive.1.size < 2 ^ 64 := by
      intro disk base ho
      rw [origin_networkRequest] at ho
      cases ho
      exact size_networkRequest
    obtain ⟨disk, base, ho, -, hiff⟩ := seeds_after_run hrun hpast leavesSeeds_sample hsize
    exact ⟨r, m', rfl, hok, disk, base, ho, hiff⟩

end Reset

end Groundwork
