import Groundwork.Proofs.Install.Clone

/-! The seeds of an installed system. They are those of the media without the request for an
installation if and only if the archive that is written keeps the names of the others; one of them
can even become a request. -/
namespace Groundwork.Install

variable {env : Environment} {config : Config} {options : InstallOptions} {m m' : Machine}
  {t t' : FileTree} {plan : InstallPlan} {source : Source} {target partition file : String}
  {s : Bundle}

/-- The names of the seeds that stay beside a request are kept by an archive. -/
def KeepsNames (s : Bundle) : Prop :=
  s.contains Source.installSeed = true →
    ∀ file ∈ (s.remove Source.installSeed).files.keys, Archive.storedName file = .ok file

/-- None of the seeds that stay beside a request becomes one under the name that an archive
stores. -/
def NamesNoRequest (s : Bundle) : Prop :=
  s.contains Source.installSeed = true → ∀ file ∈ (s.remove Source.installSeed).files.keys,
    ∀ name ∈ Bundle.variants Source.installSeed, Archive.storedName file ≠ .ok name

theorem KeepsNames.namesNoRequest (h : KeepsNames s) : NamesNoRequest s := by
  intro hcontains file hfile name hname hstored
  have hkept := h hcontains file hfile
  rw [hstored] at hkept
  cases hkept
  exact (Bundle.mem_keys_remove.1 hfile).2 hname

/-- What a partition says about an installation of a system whose media had some seeds. -/
structure Seeded (t : FileTree) (partition : String) (s : Bundle) : Prop where
  /-- Seeds without a request are left alone, others are written again under their stored names. -/
  reads : ∃ after, Bundle.onPartition t partition = .ok after ∧
    (s.contains Source.installSeed = false → after = s) ∧
    (s.contains Source.installSeed = true → ∃ ms, after = Bundle.ofMembers ms ∧
      (s.remove Source.installSeed).files.entries.mapM Archive.stored = .ok ms)
  /-- They are the others exactly if their names are kept. -/
  exact_iff : Bundle.onPartition t partition = .ok (s.remove Source.installSeed) ↔ KeepsNames s
  /-- No installation is asked for exactly if none of the others becomes a request. -/
  asks_iff : Source.optionsOn t partition = .ok none ↔ NamesNoRequest s

/-- A seed that is there says something, if only that it cannot be read. -/
theorem installOptions?_eq_none_iff {seed : String} :
    s.installOptions? seed = .ok none ↔ s.contains seed = false := by
  have hdecoded (decoded : Except String InstallOptions) (f : String → Failure) :
      (decoded.map some).mapError f ≠ .ok none := by
    cases decoded <;> simp [Except.map]
  unfold Bundle.installOptions? Bundle.contains
  cases s.get? seed with
  | none => simp
  | some found =>
    constructor
    · intro h
      exact (hdecoded _ _ h).elim
    · intro h
      cases h

theorem optionsOn_eq_none_iff (h : Bundle.onPartition t partition = .ok s) :
    Source.optionsOn t partition = .ok none ↔ s.contains Source.installSeed = false := by
  rw [Source.optionsOn, h]
  exact installOptions?_eq_none_iff

/-- Seeds without a request stay as they are. -/
theorem seeded_of_kept (hasks : s.contains Source.installSeed = false)
    (hread : Bundle.onPartition t partition = .ok s) : Seeded t partition s where
  reads := by
    refine ⟨s, hread, fun _ => rfl, fun hcontains => ?_⟩
    rw [hasks] at hcontains
    cases hcontains
  exact_iff := by
    rw [hread, Bundle.remove_of_not_contains hasks]
    simp [KeepsNames, hasks]
  asks_iff := by
    rw [optionsOn_eq_none_iff hread]
    simp [NamesNoRequest, hasks]

/-- Others are read back under the names that an archive has stored. -/
theorem seeded_of_rewritten (hasks : s.contains Source.installSeed = true)
    (hwhole : (s.remove Source.installSeed).toArchive.2 = none)
    (hread : t.read partition = .ok (s.remove Source.installSeed).toArchive.1)
    (hsize : (s.remove Source.installSeed).toArchive.1.size < 2 ^ 64) : Seeded t partition s := by
  have harchive : (s.remove Source.installSeed).toArchive =
      ((s.remove Source.installSeed).toArchive.1, none) := by
    rw [← hwhole]
  obtain ⟨ms, hms, hback⟩ := Bundle.ofBytes_toArchive harchive hsize List.prefix_rfl
  have hbytes : Bundle.onPartition t partition =
      Bundle.ofBytes (s.remove Source.installSeed).toArchive.1 := by
    rw [Bundle.onPartition, hread]
    rfl
  refine ⟨⟨_, hbytes.trans hback, ?_, fun _ => ⟨ms, rfl, hms⟩⟩, ?_, ?_⟩
  · intro hnone
    rw [hasks] at hnone
    cases hnone
  · rw [hbytes, Bundle.ofBytes_toArchive_eq_self_iff harchive hsize]
    simp [KeepsNames, hasks]
  · rw [optionsOn_eq_none_iff (hbytes.trans hback), Bundle.contains_eq_false_iff]
    constructor
    · intro hnone _ file hfile name hname hstored
      obtain ⟨e, he, rfl⟩ := List.mem_map.1 hfile
      exact hnone name hname ((Bundle.mem_keys_ofMembers hms).2 ⟨e, he, hstored⟩)
    · intro hnames name hname hmem
      obtain ⟨e, he, hstored⟩ := (Bundle.mem_keys_ofMembers hms).1 hmem
      exact hnames hasks e.1 (List.mem_map.2 ⟨e, he, rfl⟩) name hname hstored

theorem Seeded.of_read_eq (h : Seeded t partition s) (hread : t'.read partition = t.read partition) :
    Seeded t' partition s := by
  have hsame := Bundle.onPartition_eq_of_read_eq hread
  have hoptions : Source.optionsOn t' partition = Source.optionsOn t partition := by
    rw [Source.optionsOn, hsame, Source.optionsOn]
  refine ⟨?_, ?_, ?_⟩
  · rw [hsame]
    exact h.reads
  · rw [hsame]
    exact h.exact_iff
  · rw [hoptions]
    exact h.asks_iff

/-- The request is taken out of what is on the partition, and only if there is one. -/
theorem seeded_of_removeSeed (h : (removeSeed config target).perform m = (.ok (), m'))
    (hread : Bundle.onPartition m.files (partitionPath target config.layout.seed) = .ok s)
    (hsize : (s.remove Source.installSeed).toArchive.1.size < 2 ^ 64) :
    Seeded m'.files (partitionPath target config.layout.seed) s := by
  rw [perform_removeSeed, hread] at h
  dsimp only at h
  split at h
  · next hasks =>
    obtain ⟨hwhole, t, hover, rfl⟩ := Bundle.perform_store_eq_ok.1 h
    exact seeded_of_rewritten hasks hwhole (Bundle.read_overwrite hover) hsize
  · next hasks =>
    cases h
    exact seeded_of_kept (by simpa using hasks) hread

/-- The seeds that the copies take to the target: those of the source's seed partition, when that is
cloned, lies elsewhere than what is written, covers what the target's held, and no other copy goes
over it. -/
structure Carries (config : Config) (plan : InstallPlan) (t : FileTree) (s : Bundle) : Prop where
  cloned : config.layout.seed ∈ partitionNumbers config plan.source
  reads : ∃ content, t.read (partitionPath plan.source.device config.layout.seed) = .ok content ∧
    Bundle.ofBytes content = .ok s ∧
    ∀ old, t.read (partitionPath plan.target.kernelName config.layout.seed) = .ok old →
      old.size ≤ content.size
  origin : t.Apart (partitionPath plan.source.device config.layout.seed)
    (filled config plan.source plan.target.kernelName)
  own : ∀ i ∈ partitionNumbers config plan.source, i ≠ config.layout.seed →
    t.Apart (partitionPath plan.target.kernelName config.layout.seed)
      [partitionPath plan.target.kernelName i]

theorem onPartition_of_copies (hcarries : Carries config plan m.files s)
    (h : (copies env config plan.source plan.target.kernelName
      (partitionNumbers config plan.source)).perform m = (.ok (), m')) :
    Bundle.onPartition m'.files (partitionPath plan.target.kernelName config.layout.seed) =
      .ok s := by
  obtain ⟨content, hcontent, hs, hcovers⟩ := hcarries.reads
  obtain ⟨content', old, horigin, hold, hnew⟩ := cloned_of_copies (nodup_partitionNumbers plan.source)
    h hcarries.cloned (hcarries.origin.mono (List.subset_cons_self _ _)) hcarries.own
  rw [hcontent] at horigin
  cases horigin
  rw [Copy.append_extract_of_le (hcovers old hold)] at hnew
  exact Bundle.onPartition_eq_ok.2 ⟨content, hnew, hs⟩

theorem seeded_of_fill (hcarries : Carries config plan m.files s)
    (hsize : (s.remove Source.installSeed).toArchive.1.size < 2 ^ 64)
    (h : (fill env config plan.source plan.target.kernelName).perform m = (.ok (), m')) :
    Seeded m'.files (partitionPath plan.target.kernelName config.layout.seed) s := by
  obtain ⟨_, m₁, hcopies, hrest⟩ := Action.perform_bind_eq_ok.1 h
  rw [Action.perform_bind_of_ok _ (Action.perform_tell _ m₁), Action.perform_marking_eq_ok] at hrest
  have hread := onPartition_of_copies hcarries hcopies
  exact seeded_of_removeSeed hrest hread hsize

/-- What a partition holds stays while nothing is filled, unless it changes from outside. -/
theorem admits_read (helapse : ∀ m, (env.elapse m).read partition = m.files.read partition) :
    Machine.Admits env [] fun m m' => m'.files.read partition = m.files.read partition where
  refl _ := rfl
  trans h h' := h'.trans h
  record _ _ _ := rfl
  refill _ _ _ _ _ _ hp := by cases hp
  elapse := helapse
  arm _ _ := rfl

/-- Behind the copies the request is taken out, and nothing else is done to the seeds. -/
theorem seeded_of_furnish {delay : Option Nat} (hcarries : Carries config plan m.files s)
    (hsize : (s.remove Source.installSeed).toArchive.1.size < 2 ^ 64)
    (helapse : ∀ m, (env.elapse m).read (partitionPath plan.target.kernelName config.layout.seed) =
      m.files.read (partitionPath plan.target.kernelName config.layout.seed))
    (h : (furnish env config options plan.source plan.target.kernelName).perform m =
      (.ok delay, m')) :
    Seeded m'.files (partitionPath plan.target.kernelName config.layout.seed) s := by
  obtain ⟨_, m₁, hfill, hconclude⟩ := Action.perform_bind_eq_ok.1 h
  have hkept := (conclude_within (admits_read helapse)).of_eq hconclude
  exact (seeded_of_fill hcarries hsize hfill).of_read_eq hkept

/-- After an installation the target says what the seeds of the media say without the request for it,
as far as the archive keeps their names. They are those that are there when all partitions are made,
and they fit an archive of which all places are numbers of 64 bits. -/
theorem seeds_installed {delay : Option Nat}
    (h : (Install.run env config options).perform m = (.ok delay, m')) :
    ∃ plan m₁, (makeReady env config options).perform m = (.ok plan, m₁) ∧
      ((∀ m c o t, env.tool m c = some (o, t) → t = m.files) → m₁.files = m.files) ∧
      ∀ s, Carries config plan m₁.files s →
        (s.remove Source.installSeed).toArchive.1.size < 2 ^ 64 →
        (∀ m, (env.elapse m).read (partitionPath plan.target.kernelName config.layout.seed) =
          m.files.read (partitionPath plan.target.kernelName config.layout.seed)) →
        Seeded m'.files (partitionPath plan.target.kernelName config.layout.seed) s := by
  obtain ⟨m₂, hp, hend⟩ := perform_of_run h
  have hsame : m' = m₂ := by
    rcases hend with rfl | ⟨e, he, -⟩
    · rfl
    · cases he
  subst hsame
  rw [perform_eq_phases] at hp
  obtain ⟨plan, m₁, hready, hfurnish⟩ := Action.perform_bind_eq_ok.1 hp
  refine ⟨plan, m₁, hready, fun htools => files_of_makeReady htools hready, ?_⟩
  intro s hcarries hsize helapse
  exact seeded_of_furnish hcarries hsize helapse hfurnish

/-! ### A name that becomes a request -/

/-- A request for an installation, and a file that becomes one. -/
def requestFiles : List (String × ByteArray) :=
  [("install.json", "{}".toUTF8), ("./install.json", "{}".toUTF8)]

def requestSeeds : Bundle := ⟨Dict.ofList requestFiles⟩

def requestMachine : Machine := diskMachine (Archive.rawArchive requestFiles)

theorem ofBytes_requestFiles :
    Bundle.ofBytes (Archive.rawArchive requestFiles) = .ok requestSeeds :=
  Bundle.ofBytes_rawArchive (by decide) (by decide)

theorem whole_requestSeeds : (requestSeeds.remove Source.installSeed).toArchive.2 = none := by
  rw [Bundle.toArchive_eq_none_iff]
  decide +kernel

theorem size_requestSeeds : (requestSeeds.remove Source.installSeed).toArchive.1.size < 2 ^ 64 := by
  have harchive : (requestSeeds.remove Source.installSeed).toArchive =
      ((requestSeeds.remove Source.installSeed).toArchive.1, none) := by
    rw [← whole_requestSeeds]
  rw [Archive.size_write harchive]
  decide +kernel

theorem carries_requestMachine :
    Carries (cloneConfig 2) damagedPlan requestMachine.files requestSeeds := by
  constructor
  case cloned => decide
  case reads =>
    refine ⟨Archive.rawArchive requestFiles, (read_diskFiles ..).2.1, ofBytes_requestFiles, ?_⟩
    intro old hold
    obtain rfl := Except.ok.inj ((read_diskFiles ..).2.2.symm.trans hold)
    exact Nat.zero_le _
  case origin => decide +kernel
  case own => decide +kernel

/-- The installation from the small disk runs to its end. -/
theorem furnish_requestMachine : ∃ m₁ m',
    (makeReady damagedEnvironment (cloneConfig 2) { forceReboot := true }).perform requestMachine =
      (.ok damagedPlan, m₁) ∧ m₁.files = requestMachine.files ∧
    (furnish damagedEnvironment (cloneConfig 2) { forceReboot := true } damagedPlan.source
      damagedPlan.target.kernelName).perform m₁ = (.ok (some 5000), m') ∧
    (Install.run damagedEnvironment (cloneConfig 2) { forceReboot := true }).perform requestMachine =
      (.ok (some 5000), m') := by
  obtain ⟨m₁, hready, hfiles⟩ := @makeReady_diskMachine { forceReboot := true } rfl
    (Archive.rawArchive requestFiles)
  obtain ⟨t', hyields⟩ := @yields_furnish_diskFiles { forceReboot := true } _ "boot".toUTF8 _
    "older".toUTF8 ofBytes_requestFiles whole_requestSeeds rfl
  obtain ⟨m', hfurnish, -⟩ := hyields m₁ hfiles
  refine ⟨m₁, m', hready, hfiles, hfurnish, ?_⟩
  rw [perform_run_eq, perform_eq_phases, requestMachine, Action.perform_bind_of_ok _ hready]
  rw [show (furnish damagedEnvironment (cloneConfig 2) { forceReboot := true } damagedPlan.source
    damagedPlan.target.kernelName).perform m₁ = _ from hfurnish]

theorem not_namesNoRequest_requestSeeds : ¬ NamesNoRequest requestSeeds := by
  intro h
  have hstored : Archive.storedName "./install.json" = .ok "install.json" :=
    Action.eq_ok_of_toOption (by decide +kernel)
  exact h (by decide +kernel) "./install.json" (by decide +kernel) "install.json" (by decide +kernel)
    hstored

/-- The file beside the request takes its name, and asks for another installation. -/
theorem request_comes_back : ∃ delay m',
    (Install.run damagedEnvironment (cloneConfig 2) { forceReboot := true }).perform requestMachine =
      (.ok delay, m') ∧
    Bundle.onPartition requestMachine.files "/dev/vda2" = .ok requestSeeds ∧
    requestMachine.files.read (partitionPath "/dev/vdb" 2) = .ok .empty ∧
    ¬ Bundle.onPartition m'.files (partitionPath "/dev/vdb" 2) =
      .ok (requestSeeds.remove Source.installSeed) ∧
    Source.optionsOn m'.files (partitionPath "/dev/vdb" 2) = .ok (some {}) := by
  obtain ⟨m₁, m', -, hfiles, hfurnish, hrun⟩ := furnish_requestMachine
  have hcarries := carries_requestMachine
  rw [← hfiles] at hcarries
  have hseeded := seeded_of_furnish hcarries size_requestSeeds
    (fun m => by rw [elapse_damagedEnvironment]) hfurnish
  refine ⟨_, m', hrun, (onPartition_diskFiles ..).1.trans ofBytes_requestFiles,
    (read_diskFiles ..).2.2, ?_, ?_⟩
  · intro hexact
    exact not_namesNoRequest_requestSeeds (hseeded.exact_iff.1 hexact).namesNoRequest
  · obtain ⟨after, hafter, -, hstored⟩ := hseeded.reads
    obtain ⟨ms, rfl, hms⟩ := hstored (by decide +kernel)
    have hentries : (requestSeeds.remove Source.installSeed).files.entries =
        [("./install.json", "{}".toUTF8)] := by
      decide +kernel
    have hname : Archive.storedName "./install.json" = .ok "install.json" :=
      Action.eq_ok_of_toOption (by decide +kernel)
    rw [hentries, Bundle.mapM_stored_cons] at hms
    obtain ⟨name, more, hname', hmore, rfl⟩ := hms
    rw [hname] at hname'
    cases hname'
    cases hmore
    rw [Source.optionsOn, show Bundle.onPartition m'.files (partitionPath "/dev/vdb" 2) = _
      from hafter]
    exact Action.eq_ok_of_toOption (by decide +kernel)

theorem seeds_installed_requestMachine : ∃ (plan : InstallPlan) (delay : Option Nat) (m' : Machine),
    (Install.run damagedEnvironment (cloneConfig 2) { forceReboot := true }).perform requestMachine =
      (.ok delay, m') ∧ Seeded m'.files
        (partitionPath plan.target.kernelName (cloneConfig 2).layout.seed) requestSeeds := by
  obtain ⟨m₁, m', hready, hfiles, -, hrun⟩ := furnish_requestMachine
  obtain ⟨plan, m₂, hready', -, hseeds⟩ := seeds_installed hrun
  rw [hready] at hready'
  cases hready'
  have hcarries := carries_requestMachine
  rw [← hfiles] at hcarries
  exact ⟨damagedPlan, _, m', hrun, hseeds requestSeeds hcarries size_requestSeeds
    fun m => by rw [elapse_damagedEnvironment]⟩

end Groundwork.Install
