import Groundwork.Proofs.FileTree.Shape
import Groundwork.Proofs.Install.Order

/-! What an installation does to the files. It fills the target's partitions and nothing else, and
one that succeeds leaves the source's contents there. -/
namespace Groundwork.Install

open FileTree

variable {env : Environment} {config : Config} {options : InstallOptions} {m m' : Machine}
  {source : Source} {target : String} {indices : List Nat} {index : Nat}

theorem fills_filled (paths : List String) :
    Machine.Fills paths fun m m' => Filled paths m.files m'.files where
  refl m := .refl paths m.files
  trans := Filled.trans
  record m _ _ := .refl paths m.files
  refill _ _ _ _ _ _ hp hread hl hr := .of_refilled hr hl hread hp

theorem admits_filled (helapse : ∀ m, env.elapse m = m.files) (paths : List String) :
    Machine.Admits env paths fun m m' => Filled paths m.files m'.files where
  toFills := fills_filled paths
  elapse m := by
    rw [helapse m]
    exact .refl paths m.files
  arm m _ := .refl paths m.files

/-- What a partition holds after another one was copied over it. -/
def Cloned (t t' : FileTree) (origin copy : String) : Prop :=
  ∃ content old, t.read origin = .ok content ∧ t.read copy = .ok old ∧
    t'.read copy = .ok (content ++ old.extract content.size old.size)

theorem cloned_copyPartition
    (h : (copyPartition env config source target index).perform m = (.ok (), m')) :
    Cloned m.files m'.files (partitionPath source.device index) (partitionPath target index) := by
  unfold copyPartition at h
  rw [Action.perform_bind_of_ok _ (Action.perform_announce _ m),
    Action.perform_bind_of_ok _ (Action.perform_logInfo _ _)] at h
  obtain ⟨content, place, old, mode, hread, hopen, hfiles⟩ := Copy.contents_eq_ok h
  rw [Copy.overlay_size] at hfiles
  obtain ⟨hr, hl⟩ := refilled_of_openExisting hopen (content ++ old.extract content.size old.size)
  refine ⟨content, old, hread, read_eq_ok.2 ⟨place, mode, openExisting_eq_ok.1 hopen⟩, ?_⟩
  rw [hfiles]
  exact hr.read hl

theorem filled_copies {r : Except Failure Unit}
    (h : (copies env config source target indices).perform m = (r, m')) :
    Filled (indices.map (partitionPath target)) m.files m'.files :=
  (copies_within (fills_filled _) fun i hi => List.mem_map.2 ⟨i, hi, rfl⟩).of_eq h

/-- Induction on the partitions. What comes before a copy leaves its source and its target, and what
comes after it leaves its target. -/
theorem cloned_of_copies (hnodup : indices.Nodup)
    (h : (copies env config source target indices).perform m = (.ok (), m'))
    (hindex : index ∈ indices)
    (horigin : m.files.Apart (partitionPath source.device index)
      (indices.map (partitionPath target)))
    (hown : ∀ i ∈ indices, i ≠ index →
      m.files.Apart (partitionPath target index) [partitionPath target i]) :
    Cloned m.files m'.files (partitionPath source.device index) (partitionPath target index) := by
  induction indices generalizing m with
  | nil => cases hindex
  | cons i indices ih =>
    obtain ⟨hfresh, hnodup⟩ := List.nodup_cons.1 hnodup
    rw [copies, List.forM] at h
    obtain ⟨_, m₁, hcopy, hrest⟩ := Action.perform_bind_eq_ok.1 h
    have hfirst : Filled [partitionPath target i] m.files m₁.files :=
      ((copyPartition_within (fills_filled _) List.mem_cons_self).marking _).of_eq hcopy
    rcases List.mem_cons.1 hindex with rfl | hindex
    · -- the copy itself, and then the others
      have hlater := filled_copies hrest
      obtain ⟨content, old, horig, hold, hnew⟩ :=
        cloned_copyPartition (Action.perform_marking_eq_ok.1 hcopy)
      have hkept : m₁.files.Apart (partitionPath target index)
          (indices.map (partitionPath target)) := by
        refine hfirst.shape.apart_iff.2 fun q hq p hp => ?_
        obtain ⟨j, hj, rfl⟩ := List.mem_map.1 hp
        have hne : j ≠ index := fun heq => hfresh (heq ▸ hj)
        exact hown j (.tail _ hj) hne q hq _ List.mem_cons_self
      refine ⟨content, old, horig, hold, ?_⟩
      rw [hlater.read_eq hkept, hnew]
    · -- another copy first
      have hne : i ≠ index := fun heq => hfresh (heq ▸ hindex)
      obtain ⟨content, old, horig, hold, hnew⟩ := ih hnodup hrest hindex
        (hfirst.shape.apart_iff.2 (horigin.mono (List.map_subset _ (List.subset_cons_self _ _))))
        (fun j hj hjne => hfirst.shape.apart_iff.2 (hown j (.tail _ hj) hjne))
      rw [hfirst.read_eq (horigin.mono (by simp))] at horig
      rw [hfirst.read_eq (hown i List.mem_cons_self hne)] at hold
      exact ⟨content, old, horig, hold, hnew⟩

/-- Behind the copies only the seed partition is filled again. -/
theorem cloned_of_furnish {delay : Option Nat} (helapse : ∀ m, env.elapse m = m.files)
    (h : (furnish env config options source target).perform m = (.ok delay, m'))
    (hindex : index ∈ partitionNumbers config source) (hseed : index ≠ config.layout.seed)
    (horigin : m.files.Apart (partitionPath source.device index) (filled config source target))
    (hown : ∀ i ∈ config.layout.seed :: partitionNumbers config source, i ≠ index →
      m.files.Apart (partitionPath target index) [partitionPath target i]) :
    Cloned m.files m'.files (partitionPath source.device index) (partitionPath target index) := by
  obtain ⟨_, m₁, hfill, hconclude⟩ := Action.perform_bind_eq_ok.1 h
  obtain ⟨_, m₂, hcopies, hrest⟩ := Action.perform_bind_eq_ok.1 hfill
  rw [Action.perform_bind_of_ok _ (Action.perform_tell _ m₂)] at hrest
  have hcopied : Filled ((partitionNumbers config source).map (partitionPath target)) m.files m₂.files :=
    filled_copies hcopies
  obtain ⟨content, old, horig, hold, hnew⟩ := cloned_of_copies (nodup_partitionNumbers source)
    hcopies hindex (horigin.mono (List.subset_cons_self _ _)) fun i hi => hown i (.tail _ hi)
  have hremoved := ((removeSeed_within (fills_filled
    [partitionPath target config.layout.seed]) List.mem_cons_self).marking _).of_eq hrest
  rw [Machine.files_record] at hremoved
  have hended : Filled [] m₁.files m'.files :=
    (conclude_within (admits_filled helapse [])).of_eq hconclude
  have hkept : m₂.files.Apart (partitionPath target index)
      [partitionPath target config.layout.seed] :=
    hcopied.shape.apart_iff.2 (hown _ List.mem_cons_self hseed.symm)
  refine ⟨content, old, horig, hold, ?_⟩
  rw [hended.read_eq (by simp [Apart]), hremoved.read_eq hkept, hnew]

/-- What an installation has done to the files. Only the target's partitions were filled; in
particular no partition of the source was, unless it leads to one of them. After a success each
partition is cloned that shares its file with no other one. -/
structure Clones (config : Config) (plan : InstallPlan) (t t' : FileTree) (success : Bool) :
    Prop where
  frame : Filled (filled config plan.source plan.target.kernelName) t t'
  source : ∀ index, t.Apart (partitionPath plan.source.device index)
      (filled config plan.source plan.target.kernelName) →
    t'.read (partitionPath plan.source.device index) =
      t.read (partitionPath plan.source.device index)
  copies : success = true → ∀ index ∈ partitionNumbers config plan.source,
    index ≠ config.layout.seed →
    t.Apart (partitionPath plan.source.device index)
      (filled config plan.source plan.target.kernelName) →
    (∀ i ∈ config.layout.seed :: partitionNumbers config plan.source, i ≠ index →
      t.Apart (partitionPath plan.target.kernelName index)
        [partitionPath plan.target.kernelName i]) →
    Cloned t t' (partitionPath plan.source.device index)
      (partitionPath plan.target.kernelName index)

theorem files_of_course {as : List Attempt}
    (htools : ∀ m c o t, env.tool m c = some (o, t) → t = m.files)
    (h : Course env Machine.Reports m as m') : m'.files = m.files :=
  h.leftAlone.files fun _ _ _ _ htool => htools _ _ _ _ htool

theorem files_of_makeReady {r : Except Failure InstallPlan}
    (htools : ∀ m c o t, env.tool m c = some (o, t) → t = m.files)
    (h : (makeReady env config options).perform m = (r, m')) : m'.files = m.files := by
  rcases makeReady_cases h with ⟨e, as, -, hcourse, -⟩ |
    ⟨plan, entries, wipes, done, as, hprepared, -⟩
  · exact files_of_course htools hcourse
  · exact files_of_course htools hprepared.course

/-- An installation changes no file unless it has chosen a target, and then it clones the source's
partitions to that. -/
theorem run_clones {r : Except Failure (Option Nat)}
    (htools : ∀ m c o t, env.tool m c = some (o, t) → t = m.files)
    (helapse : ∀ m, env.elapse m = m.files)
    (h : (Install.run env config options).perform m = (r, m')) :
    (m'.files = m.files ∧ ∃ e, r = .error e) ∨
      ∃ plan m₁, (scout env config options).perform m = (.ok plan, m₁) ∧
        Clones config plan m.files m'.files r.isOk := by
  obtain ⟨m₁, hp, hend⟩ := perform_of_run h
  have hfiles : m'.files = m₁.files := by
    rcases hend with rfl | ⟨e, -, rfl⟩
    · rfl
    · rfl
  rw [hfiles]
  rcases perform_cases hp with ⟨e, as, rfl, hcourse, -, -⟩ |
    ⟨plan, entries, wipes, done, as, m₂, hprepared, ⟨-, rfl, e, rfl⟩ | ⟨-, hfurnish⟩⟩
  · exact .inl ⟨files_of_course htools hcourse, e, rfl⟩
  · obtain ⟨m₃, hscout⟩ := hprepared.scouted
    rw [files_of_course htools hprepared.course]
    exact .inr ⟨plan, m₃, hscout, .refl _ _, fun _ _ => rfl, fun hok => by cases hok⟩
  · obtain ⟨m₃, hscout⟩ := hprepared.scouted
    have hframe : Filled (filled config plan.source plan.target.kernelName) m₂.files m₁.files :=
      (furnish_within (admits_filled helapse _)).of_eq hfurnish
    rw [← files_of_course htools hprepared.course]
    refine .inr ⟨plan, m₃, hscout, hframe, fun index hapart => hframe.read_eq hapart, ?_⟩
    intro hok index hindex hseed horigin hown
    cases r with
    | error e => cases hok
    | ok delay => exact cloned_of_furnish helapse hfurnish hindex hseed horigin hown

theorem run_clones_diskMachine : ∃ r m', (Install.run damagedEnvironment (cloneConfig 2)
    { forceReboot := true }).perform (diskMachine "seed".toUTF8) = (r, m') ∧ r.isOk = true ∧
    ∃ plan m₁, (scout damagedEnvironment (cloneConfig 2) { forceReboot := true }).perform
      (diskMachine "seed".toUTF8) = (.ok plan, m₁) ∧
        Clones (cloneConfig 2) plan (diskMachine "seed".toUTF8).files m'.files r.isOk := by
  obtain ⟨m', hrun⟩ := run_diskMachine_plain
  refine ⟨_, m', hrun, rfl, ?_⟩
  rcases run_clones keepsFiles_damagedEnvironment elapse_damagedEnvironment hrun with
    ⟨-, e, he⟩ | hclones
  · cases he
  · exact hclones

/-! ### Two names of one partition -/

/-- Two disks, where the target's first partition is another name of its seed partition. -/
def linkedFiles (boot seed old : ByteArray) : FileTree :=
  ⟨[(["boot"], .directory), (["dev"], .directory), (["dev", "vda1"], .file boot 0o644),
    (["dev", "vda2"], .file seed 0o644), (["dev", "vdb1"], .link "vdb2"),
    (["dev", "vdb2"], .file old 0o644)], []⟩

def linkedMachine : Machine :=
  ⟨linkedFiles "boot".toUTF8 "seed".toUTF8 "older".toUTF8, [], []⟩

theorem read_linkedFiles (boot seed old : ByteArray) :
    (linkedFiles boot seed old).read (partitionPath "/dev/vda" 1) = .ok boot ∧
      (linkedFiles boot seed old).read (partitionPath "/dev/vda" 2) = .ok seed ∧
      (linkedFiles boot seed old).read (partitionPath "/dev/vdb" 1) = .ok old ∧
      (linkedFiles boot seed old).read (partitionPath "/dev/vdb" 2) = .ok old := by
  obtain ⟨hboot, hseed, hboot', hseed'⟩ := partitionPath_disks
  rw [hboot, hseed, hboot', hseed']
  exact ⟨rfl, rfl, rfl, rfl⟩

theorem openExisting_linkedFiles (boot seed old : ByteArray) :
    (linkedFiles boot seed old).openExisting (partitionPath "/dev/vdb" 1) =
        .ok (["dev", "vdb2"], old, 0o644) ∧
      (linkedFiles boot seed old).openExisting (partitionPath "/dev/vdb" 2) =
        .ok (["dev", "vdb2"], old, 0o644) := by
  obtain ⟨-, -, hboot', hseed'⟩ := partitionPath_disks
  rw [hboot', hseed']
  exact ⟨rfl, rfl⟩

theorem refill_linkedFiles (boot seed old content : ByteArray) :
    (linkedFiles boot seed old).refill ["dev", "vdb2"] content = linkedFiles boot seed content :=
  rfl

variable {boot seed old : ByteArray}

theorem yields_copies_linkedFiles : Action.Yields (linkedFiles boot seed old)
    (copies damagedEnvironment config damagedPlan.source "/dev/vdb" [1, 2]) ⟨⟩
    (linkedFiles boot seed
      (Copy.overlay seed (Copy.overlay boot old boot.size) seed.size)) := by
  have hfirst := @yields_copyPartition damagedEnvironment config _ damagedPlan.source "/dev/vdb" 1
    _ _ _ _ nofun (read_linkedFiles boot seed old).1 (openExisting_linkedFiles boot seed old).1
  rw [refill_linkedFiles] at hfirst
  have hsecond := @yields_copyPartition damagedEnvironment config _ damagedPlan.source "/dev/vdb" 2
    _ _ _ _ nofun (read_linkedFiles boot seed (Copy.overlay boot old boot.size)).2.1
    (openExisting_linkedFiles boot seed (Copy.overlay boot old boot.size)).2
  rw [refill_linkedFiles] at hsecond
  exact hfirst.marking.bind (hsecond.marking.bind (.pure _ PUnit.unit))

/-- The later copy goes over the earlier one. -/
theorem yields_run_linkedFiles {last : ByteArray}
    (hlast : last = Copy.overlay seed (Copy.overlay boot old boot.size) seed.size)
    (hplain : Archive.hasMagic last = false) : Action.Yields (linkedFiles boot seed old)
      (Install.run damagedEnvironment (cloneConfig 2) { forceReboot := true }) (some 5000)
      (linkedFiles boot seed last) := by
  have hload : Bundle.onPartition (linkedFiles boot seed last)
      (partitionPath "/dev/vdb" (cloneConfig 2).layout.seed) = .ok .empty :=
    Bundle.onPartition_eq_ok.2 ⟨last, (read_linkedFiles ..).2.2.2, ofBytes_of_not_archive hplain⟩
  have hremove : Action.Yields (linkedFiles boot seed last)
      (removeSeed (cloneConfig 2) "/dev/vdb") () (linkedFiles boot seed last) := by
    intro m hm
    rw [perform_removeSeed, hm, hload]
    exact ⟨m, rfl, hm⟩
  have hcopies := @yields_copies_linkedFiles (cloneConfig 2) boot seed old
  rw [← hlast] at hcopies
  exact yields_run (yields_makeReady_damagedEnvironment (yields_plan_damagedEnvironment rfl rfl))
    (yields_furnish hcopies hremove rfl)

theorem apart_linkedMachine : ∀ index ∈ [1, 2], linkedMachine.files.Apart
    (partitionPath "/dev/vda" index) (filled (cloneConfig 2) damagedPlan.source "/dev/vdb") := by
  decide +kernel

/-- The later copy takes the place of the earlier one if both partitions are one. -/
theorem linked_partition_not_cloned : ∃ delay m' plan m₁,
    (Install.run damagedEnvironment (cloneConfig 2) { forceReboot := true }).perform linkedMachine =
      (.ok delay, m') ∧
    (scout damagedEnvironment (cloneConfig 2) { forceReboot := true }).perform linkedMachine =
      (.ok plan, m₁) ∧
    (∀ index ∈ partitionNumbers (cloneConfig 2) plan.source, linkedMachine.files.Apart
      (partitionPath plan.source.device index)
      (filled (cloneConfig 2) plan.source plan.target.kernelName)) ∧
    1 ∈ partitionNumbers (cloneConfig 2) plan.source ∧ 1 ≠ (cloneConfig 2).layout.seed ∧
    ¬ Cloned linkedMachine.files m'.files (partitionPath plan.source.device 1)
      (partitionPath plan.target.kernelName 1) := by
  have hyields := @yields_run_linkedFiles "boot".toUTF8 "seed".toUTF8 "older".toUTF8 "seedr".toUTF8
    (by decide +kernel) (by decide)
  obtain ⟨m', hrun, hfiles⟩ := hyields linkedMachine rfl
  obtain ⟨m₁, hscout, -⟩ := yields_scout (@yields_plan_damagedEnvironment { forceReboot := true } _ _
    2 rfl rfl) linkedMachine rfl
  refine ⟨_, m', damagedPlan, m₁, hrun, hscout, apart_linkedMachine, by decide, by decide, ?_⟩
  rintro ⟨content, older, horigin, hold, hnew⟩
  rw [hfiles] at hnew
  obtain rfl := Except.ok.inj ((read_linkedFiles ..).1.symm.trans horigin)
  obtain rfl := Except.ok.inj ((read_linkedFiles ..).2.2.1.symm.trans hold)
  have hsame := Except.ok.inj ((read_linkedFiles ..).2.2.1.symm.trans hnew)
  exact absurd hsame (by decide +kernel)

end Groundwork.Install
