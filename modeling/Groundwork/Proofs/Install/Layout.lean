import Groundwork.Config.Document
import Groundwork.Proofs.Install.Seeds
import Groundwork.Proofs.Seed.Partition

/-! Which partition numbers an installation gets by with. On a machine where nothing else is wrong it
succeeds if and only if the seed partition is among those that are cloned; otherwise the target is
filled first, and then no seeds are found on it. -/
namespace Groundwork.Install

open Groundwork.Action PartitionTable
open FileTree (Filled SameShape)

variable {env : Environment} {config : Config} {options : InstallOptions} {plan : InstallPlan}
  {m m₁ m' : Machine} {t t' : FileTree} {source : Source} {target : String} {indices : List Nat}
  {index : Nat}

/-! ### A machine that is in order -/

/-- The archive of some ordinary seeds, at the front of what a partition holds. -/
structure HoldsArchive (content : ByteArray) (b : Bundle) : Prop where
  normal : ∀ name ∈ b.files.keys, Path.IsNormal name
  whole : b.toArchive.2 = none
  size : b.toArchive.1.size < 2 ^ 64
  front : b.toArchive.1.toList <+: content.toList

/-- Tools that do what a plan asks of them. They find no table on the target, and they describe the
source's partitions. -/
structure Equipped (env : Environment) (config : Config) (plan : InstallPlan) : Prop where
  succeed : ∀ m c, ∃ o, env.tool m c = some (o, m.files) ∧ o.status = some 0
  blank : ∀ m o t, env.tool m (checkCommand plan.target.kernelName) = some (o, t) →
    o.mentions noTableMark = true
  described : ∀ index ∈ partitionNumbers config plan.source, ∀ m o t,
    env.tool m (infoCommand (tableDisk config plan.source) index) = some (o, t) →
    Describes index o

/-- A machine on which nothing is in the way of a plan: the partitions that are cloned are there on both
disks, each a file of its own, and those of the target are empty. No read of them ends early, and the
source's seeds are ordinary ones. A seed partition that is not cloned is not there. -/
structure Fits (env : Environment) (config : Config) (plan : InstallPlan) (t : FileTree) : Prop
    extends Equipped env config plan where
  delivers : ∀ path, ∀ d ∈ env.deliveries path, d ≠ .upTo 0
  origins : ∀ index ∈ partitionNumbers config plan.source,
    ∃ content, t.read (partitionPath plan.source.device index) = .ok content
  copies : ∀ index ∈ partitionNumbers config plan.source,
    t.read (partitionPath plan.target.kernelName index) = .ok .empty
  origin_apart : ∀ index ∈ partitionNumbers config plan.source,
    t.Apart (partitionPath plan.source.device index)
      (filled config plan.source plan.target.kernelName)
  copy_apart : ∀ index ∈ partitionNumbers config plan.source,
    ∀ i ∈ partitionNumbers config plan.source, i ≠ index →
      t.Apart (partitionPath plan.target.kernelName index)
        [partitionPath plan.target.kernelName i]
  seeds : config.layout.seed ∈ partitionNumbers config plan.source → ∃ content b,
    t.read (partitionPath plan.source.device config.layout.seed) = .ok content ∧
      HoldsArchive content b
  absent : config.layout.seed ∉ partitionNumbers config plan.source → ∃ e,
    t.find (partitionPath plan.target.kernelName config.layout.seed) true = .error e ∧
      e.kind = .notFound

theorem HoldsArchive.ofBytes {content : ByteArray} {b : Bundle} (h : HoldsArchive content b) :
    Bundle.ofBytes content = .ok b :=
  Bundle.ofBytes_of_kept (Prod.ext rfl h.whole) h.size h.front
    (Bundle.storedName_of_whole h.normal h.whole)

/-! ### Up to the last partition -/

namespace Equipped

theorem tools (h : Equipped env config plan) (m : Machine) (c : Command) (o : Output) (t' : FileTree)
    (htool : env.tool m c = some (o, t')) : t' = m.files := by
  obtain ⟨o', ho', -⟩ := h.succeed m c
  rw [ho'] at htool
  cases htool
  rfl

/-- A tool answers, and what is known of its answers holds. -/
theorem runs (h : Equipped env config plan) {c : Command} {Q : Output → Prop}
    (hQ : ∀ m o t, env.tool m c = some (o, t) → o.success = true → Q o) (t' : FileTree) :
    Provides t' (Action.run env c) Q t' := by
  refine .run ?_
  rintro m rfl
  obtain ⟨o, ho, hok⟩ := h.succeed m c
  exact ⟨o, ho, hQ m o _ ho (Output.success_iff.2 hok)⟩

theorem runsChecked (h : Equipped env config plan) {c : Command} {Q : Output → Prop}
    (hQ : ∀ m o t, env.tool m c = some (o, t) → Q o) (t' : FileTree) :
    Provides t' (runChecked env c) Q t' := by
  refine .runChecked ?_
  rintro m rfl
  obtain ⟨o, ho, hok⟩ := h.succeed m c
  exact ⟨o, ho, Output.success_iff.2 hok, hQ m o _ ho⟩

theorem yields_examine (h : Equipped env config plan) (t' : FileTree) :
    Yields t' (examine env options plan.target.kernelName) options.forceInstall t' := by
  have hcheck : Yields t' (check env plan.target.kernelName) .absent t' := by
    refine (h.runs (Q := fun o => stateOf plan.target.kernelName o = .ok .absent) ?_ t').bind_yields
      fun o ho => .ofExcept t' ho
    intro m o t ho hok
    rw [stateOf, if_pos hok, if_pos (h.blank m o t ho)]
  exact hcheck.bind (.pure t' _)

/-- All partitions of the target are made. -/
theorem makeReady (h : Equipped env config plan)
    (hscout : (scout env config options).perform m = (.ok plan, m₁)) : ∃ m₂,
      (makeReady env config options).perform m = (.ok plan, m₂) ∧ m₂.files = m.files := by
  obtain ⟨r, m', as, hscout', hcourse, -⟩ := @scout_cases env config options m
  cases hscout.symm.trans hscout'
  have hfiles : m₁.files = m.files := files_of_course h.tools hcourse
  have hrun (c : Command) : Provides m.files (Action.run env c) (fun _ => True) m.files :=
    h.runs (fun _ _ _ _ _ => trivial) m.files
  have hchecked (c : Command) :
      Provides m.files (Action.runChecked env c) (fun _ => True) m.files :=
    h.runsChecked (fun _ _ _ _ => trivial) m.files
  have hteardown (wipes : Bool) : Yields m.files
      (teardown env config plan.source plan.target.kernelName wipes) () m.files :=
    yields_teardown (fun _ => yields_wipe (hrun _) (hrun _)) (hchecked _) (hchecked _)
  have hcreate (index : Nat) (hindex : index ∈ partitionNumbers config plan.source) :
      Yields m.files (createPartition env config plan.source plan.target.kernelName index) ()
        m.files :=
    yields_createPartition (h.runsChecked (h.described index hindex) m.files) fun _ _ => hchecked _
  have hprepare (wipes : Bool) : Yields m.files
      (prepare env config plan.source plan.target.kernelName wipes) () m.files :=
    (hteardown wipes).marking.bind (.forM fun index hindex => (hcreate index hindex).marking)
  have hrest : Yields m.files (do
      let wipes ← examine env options plan.target.kernelName
      prepare env config plan.source plan.target.kernelName wipes
      return plan) plan m.files :=
    (h.yields_examine m.files).bind ((hprepare _).bind (.pure m.files plan))
  obtain ⟨m₂, hready, hfiles₂⟩ := hrest m₁ hfiles
  exact ⟨m₂, (perform_bind_of_ok _ hscout).trans hready, hfiles₂⟩

end Equipped

/-! ### The copies -/

/-- Copies between files that are there succeed. Induction on the partitions: no copy takes a file
away. -/
theorem yields_copies (hdelivers : ∀ path, ∀ d ∈ env.deliveries path, d ≠ .upTo 0)
    (hfiles : ∀ index ∈ indices,
      (∃ content, t.read (partitionPath source.device index) = .ok content) ∧
      ∃ old, t.read (partitionPath target index) = .ok old) :
    ∃ t', Yields t (copies env config source target indices) ⟨⟩ t' := by
  induction indices generalizing t with
  | nil => exact ⟨t, .pure t PUnit.unit⟩
  | cons index indices ih =>
    obtain ⟨⟨⟨content, hcontent⟩, old, hold⟩, hothers⟩ := List.forall_mem_cons.1 hfiles
    obtain ⟨place, mode, hfind⟩ := FileTree.read_eq_ok.1 hold
    have hopen := FileTree.openExisting_eq_ok.2 hfind
    have hcopy := @yields_copyPartition env config t source target index content old place mode
      (hdelivers _) hcontent hopen
    obtain ⟨hrefilled, hl⟩ :=
      FileTree.refilled_of_openExisting hopen (Copy.overlay content old content.size)
    have hshape := (Filled.of_refilled hrefilled hl hold (List.mem_singleton_self _)).shape
    obtain ⟨t', hrest⟩ := ih fun i hi => by
      obtain ⟨⟨_, horigin⟩, _, hcopy⟩ := hothers i hi
      exact ⟨hshape.exists_read horigin, hshape.exists_read hcopy⟩
    exact ⟨t', hcopy.marking.bind hrest⟩

/-- The target's partitions hold what the source's do, and the ways through the files are the same. -/
theorem Fits.copied (h : Fits env config plan t) : ∃ t',
    Yields t (Install.copies env config plan.source plan.target.kernelName
      (partitionNumbers config plan.source)) ⟨⟩ t' ∧ SameShape t t' ∧
    ∀ index ∈ partitionNumbers config plan.source,
      t'.read (partitionPath plan.target.kernelName index) =
        t.read (partitionPath plan.source.device index) := by
  obtain ⟨t', hcopies⟩ := @yields_copies env config t plan.source plan.target.kernelName
    (partitionNumbers config plan.source) h.delivers
    fun index hindex => ⟨h.origins index hindex, _, h.copies index hindex⟩
  obtain ⟨m', hrun, rfl⟩ := hcopies ⟨t, [], []⟩ rfl
  refine ⟨m'.files, hcopies, (filled_copies hrun).shape, ?_⟩
  intro index hindex
  obtain ⟨content, old, horigin, hold, hnew⟩ := cloned_of_copies
    (nodup_partitionNumbers plan.source) hrun hindex
    ((h.origin_apart index hindex).mono (List.subset_cons_self _ _)) (h.copy_apart index hindex)
  cases hold.symm.trans (h.copies index hindex)
  rw [hnew, Copy.append_extract_of_le (Nat.zero_le _)]
  exact horigin.symm

/-! ### The seeds -/

/-- With a seed partition among those that are cloned an installation runs to its end. -/
theorem Fits.run_of_cloned (h : Fits env config plan m.files)
    (hscout : (scout env config options).perform m = (.ok plan, m₁))
    (hforced : options.forceReboot = true)
    (hseed : config.layout.seed ∈ partitionNumbers config plan.source) :
    ∃ m', (Install.run env config options).perform m =
      (.ok (some config.delays.install), m') := by
  obtain ⟨m₂, hready, hfiles⟩ := h.toEquipped.makeReady hscout
  obtain ⟨t₁, hcopies, -, hcopied⟩ := h.copied
  obtain ⟨content, b, hcontent, harchive⟩ := h.seeds hseed
  have hread : t₁.read (partitionPath plan.target.kernelName config.layout.seed) = .ok content :=
    (hcopied _ hseed).trans hcontent
  obtain ⟨t₂, hover⟩ := Bundle.exists_overwrite (b.remove Source.installSeed) hread
  have hremove := yields_removeSeed (Bundle.onPartition_eq_ok.2 ⟨content, hread, harchive.ofBytes⟩)
    (Bundle.whole_remove harchive.whole _) hover
  obtain ⟨m', hfurnish, -⟩ := yields_furnish hcopies hremove hforced m₂ hfiles
  have hperform : (Install.perform env config options).perform m =
      (.ok (some config.delays.install), m') := by
    rw [perform_eq_phases, perform_bind_of_ok _ hready, hfurnish]
  exact ⟨m', by rw [perform_run_eq, hperform]⟩

/-- With one that is not cloned it fails, after all partitions have been copied. -/
theorem Fits.run_of_not_cloned (h : Fits env config plan m.files)
    (hscout : (scout env config options).perform m = (.ok plan, m₁))
    (hseed : config.layout.seed ∉ partitionNumbers config plan.source) :
    ∃ e m', e.kind = .notFound ∧ (Install.run env config options).perform m =
        (.error (.interrupted "Removing the install seed" (.system e)), m') ∧
      ∀ index ∈ partitionNumbers config plan.source,
        m'.files.read (partitionPath plan.target.kernelName index) =
          m.files.read (partitionPath plan.source.device index) := by
  obtain ⟨m₂, hready, hfiles⟩ := h.toEquipped.makeReady hscout
  obtain ⟨t₁, hcopies, hshape, hcopied⟩ := h.copied
  obtain ⟨m₃, hcopy, rfl⟩ := hcopies m₂ hfiles
  obtain ⟨e, hfind, hkind⟩ := h.absent hseed
  have hload : Bundle.onPartition m₃.files
      (partitionPath plan.target.kernelName config.layout.seed) = .error (.system e) := by
    rw [Bundle.onPartition, FileTree.read, hshape.find_error hfind]
    rfl
  obtain ⟨m₄, hm₄⟩ : ∃ m₄, m₃.record (.told (.progress 0 0)) = m₄ := ⟨_, rfl⟩
  have hremove : (removeSeed config plan.target.kernelName).perform m₄ =
      (.error (.system e), m₄) := by
    rw [perform_removeSeed, ← hm₄, Machine.files_record, hload]
  have hfill : (fill env config plan.source plan.target.kernelName).perform m₂ =
      (.error (.interrupted "Removing the install seed" (.system e)), m₄) := by
    rw [fill, perform_bind_of_ok _ hcopy, perform_bind_of_ok _ (perform_tell _ m₃), hm₄,
      perform_marking_of_error _ hremove]
    rfl
  have hperform : (Install.perform env config options).perform m =
      (.error (.interrupted "Removing the install seed" (.system e)), m₄) := by
    rw [perform_eq_phases, perform_bind_of_ok _ hready]
    exact perform_bind_of_error _ hfill
  refine ⟨e, _, hkind, run_of_error hperform, ?_⟩
  intro index hindex
  rw [Machine.files_record, ← hm₄, Machine.files_record]
  exact hcopied index hindex

/-- On a machine where nothing else is wrong an installation that does not wait for the removal of the
media succeeds if and only if the seed partition is among those that are cloned. If it is not then the
target is filled, and the failure comes last. -/
theorem run_succeeds_iff_seed_cloned
    (hscout : (scout env config options).perform m = (.ok plan, m₁))
    (hfits : Fits env config plan m.files) (hforced : options.forceReboot = true) :
    ∃ r m', (Install.run env config options).perform m = (r, m') ∧
      (r = .ok (some config.delays.install) ↔
        config.layout.seed ∈ partitionNumbers config plan.source) ∧
      (config.layout.seed ∉ partitionNumbers config plan.source →
        (∃ e, e.kind = .notFound ∧
          r = .error (.interrupted "Removing the install seed" (.system e))) ∧
        ∀ index ∈ partitionNumbers config plan.source,
          m'.files.read (partitionPath plan.target.kernelName index) =
            m.files.read (partitionPath plan.source.device index)) := by
  by_cases hseed : config.layout.seed ∈ partitionNumbers config plan.source
  · obtain ⟨m', hrun⟩ := hfits.run_of_cloned hscout hforced hseed
    exact ⟨_, m', hrun, iff_of_true rfl hseed, fun hnot => absurd hseed hnot⟩
  · obtain ⟨e, m', hkind, hrun, hcopied⟩ := hfits.run_of_not_cloned hscout hseed
    exact ⟨_, m', hrun, iff_of_false nofun hseed, fun _ => ⟨⟨e, hkind, rfl⟩, hcopied⟩⟩

/-! ### A layout of which the seed partition is not cloned -/

/-- All tools succeed, and the second disk has no table. -/
def blankAnswers : List (CommandPattern × Output) :=
  [(⟨"lsblk", ["-v"]⟩, ⟨some 0, sampleListing, ""⟩), (⟨"sgdisk", ["-v"]⟩, ⟨some 0, noTableMark, ""⟩),
    (⟨"sgdisk", ["-i"]⟩, ⟨some 0, bootListing, ""⟩)]

theorem status_blankAnswers (c : Command) :
    ((diskScript blankAnswers).answer c).status = some 0 := by
  have hall : ∀ e ∈ blankAnswers, e.2.status = some 0 := by decide
  unfold Script.answer
  split
  · next hfound => exact hall _ (List.mem_of_find?_eq_some hfound)
  · rfl

theorem equipped_blankAnswers (count : Nat) :
    Equipped (diskEnvironment blankAnswers) (cloneConfig count) damagedPlan where
  succeed m c := ⟨_, tool_diskEnvironment m c, status_blankAnswers c⟩
  blank m o t ho := by
    have hanswer : (diskScript blankAnswers).answer (checkCommand "/dev/vdb") =
        ⟨some 0, noTableMark, ""⟩ := rfl
    rw [tool_diskEnvironment] at ho
    cases ho
    rw [show damagedPlan.target.kernelName = "/dev/vdb" from rfl, hanswer, Output.mentions,
      Text.contains_self, Bool.true_or]
  described index _ m o t ho := by
    have hanswer : (diskScript blankAnswers).answer (infoCommand "/dev/vda" index) =
        ⟨some 0, bootListing, ""⟩ := rfl
    rw [tool_diskEnvironment] at ho
    cases ho
    rw [show tableDisk (cloneConfig count) damagedPlan.source = "/dev/vda" from rfl, hanswer]
    exact describes_bootListing index

theorem scout_blankAnswers {count : Nat} {place : Location}
    (hboot : m.files.find "/boot" true = .ok (place, .directory)) : ∃ m₁,
      (scout (diskEnvironment blankAnswers) (cloneConfig count) { forceReboot := true }).perform m =
        (.ok damagedPlan, m₁) := by
  have hlists : ListsDisks blankAnswers := ⟨rfl, rfl, rfl⟩
  obtain ⟨m₁, hscout, -⟩ := yields_scout (@yields_plan_diskEnvironment { forceReboot := true } _ _
    place count hlists hboot rfl) m rfl
  exact ⟨m₁, hscout⟩

/-- Two disks of one partition. -/
def singleMachine : Machine :=
  ⟨⟨[(["boot"], .directory), (["dev"], .directory), (["dev", "vda1"], .file "boot".toUTF8 0o644),
    (["dev", "vdb1"], .file .empty 0o644)], []⟩, [], []⟩

theorem read_singleMachine :
    singleMachine.files.read (partitionPath "/dev/vda" 1) = .ok "boot".toUTF8 ∧
      singleMachine.files.read (partitionPath "/dev/vdb" 1) = .ok .empty ∧
      ∃ e, singleMachine.files.find (partitionPath "/dev/vdb" 2) true = .error e ∧
        e.kind = .notFound := by
  obtain ⟨hboot, -, hboot', hseed'⟩ := partitionPath_disks
  rw [hboot, hboot', hseed']
  exact ⟨rfl, rfl, _, rfl, rfl⟩

theorem fits_singleMachine :
    Fits (diskEnvironment blankAnswers) (cloneConfig 1) damagedPlan singleMachine.files where
  toEquipped := equipped_blankAnswers 1
  delivers := nofun
  origins index hindex := by
    have hone : index ∈ [1] := hindex
    rw [List.mem_singleton.1 hone]
    exact ⟨_, read_singleMachine.1⟩
  copies index hindex := by
    have hone : index ∈ [1] := hindex
    rw [List.mem_singleton.1 hone]
    exact read_singleMachine.2.1
  origin_apart := by decide +kernel
  copy_apart := by decide +kernel
  seeds := by
    intro hseed
    exact absurd hseed (by decide)
  absent _ := read_singleMachine.2.2

/-- A layout that is accepted. -/
def singleLayout : String := "\x7b\"layout\": \x7b\"clone_count\": 1\x7d\x7d"

theorem load_singleLayout :
    Config.load "/etc/strata.json" (.ok singleLayout) = .ok (cloneConfig 1) := by
  have hraw : Json.Raw.ofText singleLayout =
      Json.Raw.parse singleLayout.toUTF8.data.toList := by
    rw [Json.Raw.ofText, Bytes.toList_eq_data]
  rw [Config.load, hraw]
  exact Action.eq_ok_of_toOption (by decide +kernel)

/-- An installation with a layout that is accepted fails after the target is filled, although nothing
else is wrong with the machine. -/
theorem accepted_layout_fails :
    Config.load "/etc/strata.json" (.ok singleLayout) = .ok (cloneConfig 1) ∧
    (∃ m₁, (scout (diskEnvironment blankAnswers) (cloneConfig 1) { forceReboot := true }).perform
      singleMachine = (.ok damagedPlan, m₁)) ∧
    Fits (diskEnvironment blankAnswers) (cloneConfig 1) damagedPlan singleMachine.files ∧
    ∃ e m', (Install.run (diskEnvironment blankAnswers) (cloneConfig 1)
        { forceReboot := true }).perform singleMachine =
          (.error (.interrupted "Removing the install seed" (.system e)), m') ∧
      m'.files.read (partitionPath "/dev/vdb" 1) = .ok "boot".toUTF8 := by
  obtain ⟨m₁, hscout⟩ := @scout_blankAnswers singleMachine 1 _ rfl
  obtain ⟨e, m', -, hrun, hcopied⟩ := fits_singleMachine.run_of_not_cloned hscout (by decide)
  exact ⟨load_singleLayout, ⟨m₁, hscout⟩, fits_singleMachine, e, m', hrun,
    (hcopied 1 (by decide)).trans read_singleMachine.1⟩

/-! ### One of which it is -/

/-- A request for an installation, and a seed beside it. -/
def twoSeeds : Bundle :=
  ⟨Dict.ofList [("install.json", "\x7b\x7d".toUTF8), ("network.json", "\x7b\x7d".toUTF8)]⟩

theorem whole_twoSeeds : twoSeeds.toArchive.2 = none := by
  rw [Bundle.toArchive_eq_none_iff]
  decide +kernel

theorem holdsArchive_twoSeeds : HoldsArchive twoSeeds.toArchive.1 twoSeeds where
  normal := by decide +kernel
  whole := whole_twoSeeds
  size := by
    have harchive : twoSeeds.toArchive = (twoSeeds.toArchive.1, none) := Prod.ext rfl whole_twoSeeds
    rw [Archive.size_write harchive]
    decide +kernel
  front := List.prefix_rfl

def seededMachine : Machine :=
  ⟨diskFiles "boot".toUTF8 twoSeeds.toArchive.1 .empty .empty, [], []⟩

theorem fits_seededMachine :
    Fits (diskEnvironment blankAnswers) (cloneConfig 2) damagedPlan seededMachine.files where
  toEquipped := equipped_blankAnswers 2
  delivers := nofun
  origins index hindex := by
    have htwo : index ∈ [1, 2] := hindex
    simp only [List.mem_cons, List.not_mem_nil, or_false] at htwo
    rcases htwo with rfl | rfl
    · exact ⟨_, (read_diskFiles ..).1⟩
    · exact ⟨_, (read_diskFiles ..).2.1⟩
  copies index hindex := by
    have htwo : index ∈ [1, 2] := hindex
    have hopen := openExisting_diskFiles "boot".toUTF8 twoSeeds.toArchive.1 .empty .empty
    simp only [List.mem_cons, List.not_mem_nil, or_false] at htwo
    rcases htwo with rfl | rfl
    · exact FileTree.read_eq_ok.2 ⟨_, _, FileTree.openExisting_eq_ok.1 hopen.1⟩
    · exact FileTree.read_eq_ok.2 ⟨_, _, FileTree.openExisting_eq_ok.1 hopen.2⟩
  origin_apart := by decide +kernel
  copy_apart := by decide +kernel
  seeds _ := ⟨_, twoSeeds, (read_diskFiles ..).2.1, holdsArchive_twoSeeds⟩
  absent := by
    intro hseed
    exact absurd (by decide) hseed

theorem run_succeeds_iff_seed_cloned_seededMachine : ∃ m',
    (Install.run (diskEnvironment blankAnswers) (cloneConfig 2) { forceReboot := true }).perform
      seededMachine = (.ok (some 5000), m') := by
  obtain ⟨m₁, hscout⟩ := @scout_blankAnswers seededMachine 2 _ rfl
  obtain ⟨r, m', hrun, hiff, -⟩ := run_succeeds_iff_seed_cloned hscout fits_seededMachine rfl
  obtain rfl := hiff.2 (by decide)
  exact ⟨m', hrun⟩

end Groundwork.Install
