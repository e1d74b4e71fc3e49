import Groundwork.Proofs.Disk.Listing
import Groundwork.Proofs.Install.Phases
import Groundwork.Proofs.Partition.Listing

/-! An installation that nothing stops runs to its end: each of its steps succeeds if the tools and
the files that it depends on do what it expects of them. -/
namespace Groundwork

namespace Install

open Groundwork.Action PartitionTable

variable {env : Environment} {config : Config} {options : InstallOptions} {t t' t'' : FileTree}
  {source : Source} {target : String} {index : Nat} {wipes : Bool} {s : Bundle} {P Q : Output → Prop}

/-- Whether a tool answers a command, and leaves the files alone. -/
def Answers (env : Environment) (t : FileTree) (c : Command) (o : Output) : Prop :=
  ∀ m : Machine, m.files = t → env.tool m c = some (o, t)

def Succeeds (env : Environment) (t : FileTree) (c : Command) : Prop :=
  ∃ o, o.success = true ∧ Answers env t c o

theorem Succeeds.provides {c : Command} (h : Succeeds env t c) :
    Provides t (Action.runChecked env c) (fun _ => True) t := by
  obtain ⟨o, ho, hanswers⟩ := h
  exact .of_yields (.runChecked hanswers ho) trivial

/-! ### Up to the last partition -/

/-- What the tools that wipe exit with does not matter. -/
theorem yields_wipe (hzap : Provides t (Action.run env (zapCommand target)) P t)
    (hdiscard : Provides t (Action.run env (discardCommand target)) Q t) :
    Yields t (wipe env target) () t :=
  ((Yields.note t _).bind (hzap.bind_yields fun _ _ => .pure t ())).bind <|
    (Yields.note t _).bind <| hdiscard.bind_yields fun _ _ => .pure t ()

theorem yields_unmountBoot
    (h : Provides t (Action.runChecked env (unmountCommand config.paths.bootMount)) P t) :
    Yields t (unmountBoot env config source) () t := by
  refine (Yields.note t _).bind (h.attempt.bind_yields ?_)
  rintro _ ⟨o, rfl, -⟩
  exact .pure t ()

theorem yields_teardown (hwipe : wipes = true → Yields t (wipe env target) () t)
    (hswapoff : Provides t (Action.runChecked env swapoffCommand) P t)
    (hunmount : Provides t (Action.runChecked env (unmountCommand config.paths.bootMount)) Q t) :
    Yields t (teardown env config source target wipes) () t := by
  have hrelease : Yields t (do
      Action.logInfo "Disabling swap"
      let _ ← Action.runChecked env swapoffCommand
      unmountBoot env config source) () t :=
    (Yields.note t _).bind (hswapoff.bind_yields fun _ _ => yields_unmountBoot hunmount)
  cases wipes with
  | false => exact hrelease
  | true =>
    refine (hwipe rfl).bind ?_
    exact hrelease

/-- Whether the answer of the tool describes an entry that can be made on another disk. -/
def Describes (index : Nat) (o : Output) : Prop :=
  o.mentions noPartitionMark = false ∧
    ∃ p code, entryOf index o.stdout = .ok p ∧ p.typeCode? = some code

theorem yields_createPartition
    (hinfo : Provides t (Action.runChecked env (infoCommand (tableDisk config source) index))
      (Describes index) t)
    (hcreate : ∀ p code, Provides t (Action.runChecked env (createCommand target p code)) P t) :
    Yields t (createPartition env config source target index) () t := by
  have hlook : Provides t (info env (tableDisk config source) index)
      (fun p => ∃ code, p.typeCode? = some code) t := by
    refine hinfo.bind ?_
    rintro o ⟨hmark, p, code, hentry, hcode⟩
    rw [hmark]
    exact .of_yields (.ofExcept t hentry) ⟨code, hcode⟩
  have hmake (p : Partition) (hp : ∃ code, p.typeCode? = some code) :
      Yields t (create env target p) () t := by
    obtain ⟨code, hcode⟩ := hp
    unfold create
    rw [hcode]
    exact (Yields.note t _).bind ((hcreate p code).bind_yields fun _ _ => .pure t ())
  exact (Yields.note t _).bind (hlook.bind_yields hmake)

theorem yields_scout {plan : InstallPlan}
    (hplan : Yields t (Install.plan env config options) plan t) :
    Yields t (scout env config options) plan t :=
  (Yields.note t _).bind <| hplan.bind <| (Yields.note t _).bind (.pure t plan)

theorem yields_makeReady {plan : InstallPlan}
    (hplan : Yields t (Install.plan env config options) plan t)
    (hexamine : Yields t (examine env options plan.target.kernelName) wipes t)
    (hteardown : Yields t (teardown env config plan.source plan.target.kernelName wipes) () t)
    (hcreate : ∀ index ∈ partitionNumbers config plan.source,
      Yields t (createPartition env config plan.source plan.target.kernelName index) () t) :
    Yields t (makeReady env config options) plan t := by
  have hprepare : Yields t (prepare env config plan.source plan.target.kernelName wipes) () t :=
    hteardown.marking.bind (.forM fun index hindex => (hcreate index hindex).marking)
  exact (yields_scout hplan).bind <| hexamine.bind <| hprepare.bind (.pure t plan)

/-! ### From there to the reboot -/

theorem yields_copyPartition {content old : ByteArray} {place : Location} {mode : Nat}
    (hdeliveries : ∀ d ∈ env.deliveries (partitionPath source.device index), d ≠ .upTo 0)
    (hread : t.read (partitionPath source.device index) = .ok content)
    (hopen : t.openExisting (partitionPath target index) = .ok (place, old, mode)) :
    Yields t (copyPartition env config source target index) ()
      (t.refill place (Copy.overlay content old content.size)) :=
  (Yields.note t _).bind <| (Yields.note t _).bind (Copy.yields_contents hdeliveries hread hopen)

/-- Seeds without a request are left alone. -/
theorem yields_removeSeed
    (hread : Bundle.onPartition t (partitionPath target config.layout.seed) = .ok s)
    (hwhole : (s.remove Source.installSeed).toArchive.2 = none)
    (hover : (s.remove Source.installSeed).overwrite
      (partitionPath target config.layout.seed) t = .ok t') :
    Yields t (removeSeed config target) ()
      (if s.contains Source.installSeed then t' else t) := by
  intro m hm
  subst hm
  rw [perform_removeSeed, hread]
  dsimp only
  split
  · exact ⟨_, Bundle.perform_store_eq_ok.2 ⟨hwhole, t', hover, rfl⟩, rfl⟩
  · exact ⟨m, rfl, rfl⟩

theorem yields_furnish
    (hcopies : Yields t (copies env config source target (partitionNumbers config source)) ⟨⟩ t')
    (hremove : Yields t' (removeSeed config target) () t'') (hforced : options.forceReboot = true) :
    Yields t (furnish env config options source target) (some config.delays.install) t'' := by
  have hfill : Yields t (fill env config source target) () t'' :=
    hcopies.bind <| (Yields.note t' _).bind hremove.marking
  have hawait : Yields t'' (awaitMedia env config source options.forceReboot) true t'' := by
    rw [hforced]
    exact .pure t'' true
  refine hfill.bind <| (Yields.note t'' _).bind <| hawait.marking.bind ?_
  intro m hm
  exact ⟨_, rfl, hm⟩

theorem yields_run {plan : InstallPlan} {delay : Option Nat}
    (hready : Yields t (makeReady env config options) plan t')
    (hfurnish : Yields t' (furnish env config options plan.source plan.target.kernelName)
      delay t'') :
    Yields t (Install.run env config options) delay t'' := by
  have hperform : Yields t (Install.perform env config options) delay t'' := by
    rw [perform_eq_phases]
    exact hready.bind hfurnish
  exact hperform.attempt.bind (.pure t'' delay)

/-! ### A system on one of two disks -/

variable {answers : List (CommandPattern × Output)} {place : Location} {count : Nat}

/-- A machine that runs from the first of two disks. Its tools answer silently unless the answer is
canned. -/
def diskScript (answers : List (CommandPattern × Output)) : Script :=
  { registry := fun _ => .sample, answers }

def diskEnvironment (answers : List (CommandPattern × Output)) : Environment :=
  Script.environment (diskScript answers) "/usr/bin/strata"

theorem tool_diskEnvironment (m : Machine) (c : Command) : (diskEnvironment answers).tool m c =
    some ((diskScript answers).answer c, m.files) := rfl

theorem answers_diskEnvironment (t : FileTree) (c : Command) :
    Answers (diskEnvironment answers) t c ((diskScript answers).answer c) := by
  intro m hm
  rw [tool_diskEnvironment, hm]

/-- Whether canned answers make the tools list the two disks, as virtual ones. -/
structure ListsDisks (answers : List (CommandPattern × Output)) : Prop where
  nvme : (diskScript answers).answer DiskClass.nvme.query = .silent
  scsi : (diskScript answers).answer DiskClass.scsi.query = .silent
  virtual : (diskScript answers).answer DiskClass.virtual.query = ⟨some 0, sampleListing, ""⟩

def cloneConfig (count : Nat) : Config := { layout := { cloneCount := count } }

def sampleDisks : List Disk := [⟨"/dev/vda", "a", 1⟩, ⟨"/dev/vdb", "b", 99999999999⟩]

theorem ofListing_sampleListing : Disk.ofListing sampleListing = .ok sampleDisks := by
  rw [Disk.ofListing_of_solid (by decide +kernel)]
  exact Action.eq_ok_of_toOption (by decide +kernel)

theorem yields_all_diskEnvironment (h : ListsDisks answers) (t : FileTree) :
    Yields t (Disk.all (diskEnvironment answers)) sampleDisks t := by
  have hclass {c : DiskClass} {o : Output} {ds : List Disk} 
      (ho : (diskScript answers).answer c.query = o)
      (hok : o.success = true) (hds : Disk.ofListing o.stdout = .ok ds) (known : List Disk) :
      Yields t (do return (← Disk.ofClass (diskEnvironment answers) c).foldl Disk.addNew known)
        (ds.foldl Disk.addNew known) t := by
    subst ho
    have hone : Yields t (Disk.ofClass (diskEnvironment answers) c) ds t :=
      (Yields.runChecked (answers_diskEnvironment t _) hok).bind (.ofExcept t hds)
    exact hone.bind (.pure t _)
  have hblank : Disk.ofListing "" = .ok [] := Action.eq_ok_of_toOption (by decide +kernel)
  have hknown : sampleDisks.foldl Disk.addNew [] = sampleDisks := by decide +kernel
  have hnvme := @hclass .nvme .silent [] h.nvme rfl hblank []
  have hscsi := @hclass .scsi .silent [] h.scsi rfl hblank []
  have hvirtual := @hclass .virtual ⟨some 0, sampleListing, ""⟩ _ h.virtual rfl ofListing_sampleListing []
  rw [hknown] at hvirtual
  simp only [Disk.all, DiskClass.all, List.foldlM_cons, List.foldlM_nil]
  exact hnvme.bind (hscsi.bind (hvirtual.bind (.pure t _)))

def damagedPlan : InstallPlan :=
  ⟨⟨"/dev/vda", false, false⟩, ⟨"/dev/vdb", "b", 99999999999⟩, sampleDisks⟩

theorem yields_detect_diskEnvironment
    (hboot : t.find "/boot" true = .ok (place, .directory)) :
    Yields t (Source.detect (diskEnvironment answers) (cloneConfig count)) damagedPlan.source t := by
  have hhas : t.has "/boot" = true := by
    rw [FileTree.has, hboot]
    rfl
  have hscratch : t.scratch "/boot" = .ok () := by
    rw [FileTree.scratch, if_neg (by decide), hboot]
  have hdisk : Yields t (systemDisk (diskEnvironment answers) (cloneConfig count).paths) "/dev/vda" t :=
    .get_bind fun _ _ => .ofExcept t Registry.underlyingDevice_sample
  have hsealed : Yields t (isReadOnly (diskEnvironment answers) "/boot") false t :=
    (Yields.consult hscratch).bind (.pure t false)
  refine .get_bind fun m hm => ?_
  dsimp only
  rw [hm, show (cloneConfig count).paths.bootMount = "/boot" from rfl, hhas]
  exact hdisk.bind <| hsealed.bind <| (Yields.note t _).bind (.pure t _)

theorem yields_plan_diskEnvironment (h : ListsDisks answers)
    (hboot : t.find "/boot" true = .ok (place, .directory))
    (hselector : options.selector = none) :
    Yields t (Install.plan (diskEnvironment answers) (cloneConfig count) options) damagedPlan t := by
  have hselect : Disk.selectTarget t (cloneConfig count) damagedPlan.source sampleDisks none =
      .ok damagedPlan.target := by
    have heligible : sampleDisks.filter (·.isEligible {} damagedPlan.source) =
        [damagedPlan.target] := by
      decide +kernel
    rw [Disk.selectTarget, if_neg (by decide)]
    change (Disk.pick t {} (sampleDisks.filter (·.isEligible {} damagedPlan.source)) none).bind _ = _
    rw [heligible]
    rfl
  refine (yields_detect_diskEnvironment hboot).bind <|
    (yields_all_diskEnvironment h t).bind <| .get_bind fun m hm => ?_
  rw [hm, hselector]
  exact (Yields.ofExcept t hselect).bind (.pure t _)

def bootListing : String :=
  "Partition GUID code: (EFI system partition)\n" ++
  "Partition unique GUID: 3b6a0000111122223333444455556666\n" ++
  "Partition size: (9MiB)\n" ++ "Partition name: ''\n"

theorem describes_bootListing (index : Nat) : Describes index ⟨some 0, bootListing, ""⟩ := by
  have hlisting : bootListing = String.ofList _ :=
    Text.append_eq_ofList (Text.append_eq_ofList (Text.append_eq_ofList rfl rfl) rfl) rfl
  have hmark : Output.mentions ⟨some 0, bootListing, ""⟩ noPartitionMark = false := by
    rw [Output.mentions, hlisting, Text.contains_ofList]
    decide +kernel
  have htype : (field? bootListing "Partition GUID code:").bind parenthesized? =
      some "EFI system partition".toList := by
    rw [hlisting, field?_ofList]
    decide +kernel
  have hunique : field? bootListing "Partition unique GUID:" =
      some "3b6a0000111122223333444455556666".toList := by
    rw [hlisting, field?_ofList]
    decide +kernel
  have hname : field? bootListing "Partition name:" = some "''".toList := by
    rw [hlisting, field?_ofList]
    decide +kernel
  have hsize : (field? bootListing "Partition size:").bind parenthesized? = some "9MiB".toList := by
    rw [hlisting, field?_ofList]
    decide +kernel
  cases hguid : Guid.parse? (String.ofList "3b6a0000111122223333444455556666".toList) with
  | none => exact absurd hguid (by decide +kernel)
  | some guid =>
    have hcode : typeCode? (String.ofList "EFI system partition".toList) = some "EF00" := by
      decide +kernel
    exact ⟨hmark, _, _, entryOf_of_fields htype hunique hguid hname hsize, hcode⟩

/-! ### A damaged table -/

def damagedScript : Script := {
  registry := fun _ => .sample
  answers := [(⟨"lsblk", ["-v"]⟩, ⟨some 0, sampleListing, ""⟩),
    (⟨"sgdisk", ["-v"]⟩, ⟨some 2, damageMark, ""⟩),
    (⟨"sgdisk", ["-Z"]⟩, ⟨some 2, "", ""⟩),
    (⟨"sgdisk", ["-i"]⟩, ⟨some 0, bootListing, ""⟩)] }

/-- A machine that runs from one of two disks. The table of the other one is damaged, and the tool
that wipes it complains. -/
def damagedEnvironment : Environment := Script.environment damagedScript "/usr/bin/strata"

theorem tool_damagedEnvironment (m : Machine) (c : Command) :
    damagedEnvironment.tool m c = some (damagedScript.answer c, m.files) := rfl

theorem keepsFiles_damagedEnvironment (m : Machine) (c : Command) (o : Output) (t : FileTree)
    (h : damagedEnvironment.tool m c = some (o, t)) : t = m.files := by
  cases h
  rfl

theorem elapse_damagedEnvironment (m : Machine) : damagedEnvironment.elapse m = m.files := rfl

theorem answers_damagedEnvironment (t : FileTree) (c : Command) :
    Answers damagedEnvironment t c (damagedScript.answer c) := by
  intro m hm
  rw [tool_damagedEnvironment, hm]

theorem provides_damagedEnvironment (t : FileTree) (c : Command) :
    Provides t (Action.run damagedEnvironment c) (fun _ => True) t :=
  .of_yields (.run (answers_damagedEnvironment t c)) trivial

theorem succeeds_damagedEnvironment {c : Command} (h : damagedScript.answer c = .silent) :
    Succeeds damagedEnvironment t c :=
  ⟨_, by rw [h]; rfl, answers_damagedEnvironment t c⟩

theorem listsDisks_damagedScript : ListsDisks damagedScript.answers := ⟨rfl, rfl, rfl⟩

theorem yields_detect_damagedEnvironment
    (hboot : t.find "/boot" true = .ok (place, .directory)) :
    Yields t (Source.detect damagedEnvironment (cloneConfig count)) damagedPlan.source t :=
  @yields_detect_diskEnvironment t damagedScript.answers place count hboot

theorem yields_plan_damagedEnvironment (hboot : t.find "/boot" true = .ok (place, .directory))
    (hselector : options.selector = none) :
    Yields t (Install.plan damagedEnvironment (cloneConfig count) options) damagedPlan t :=
  yields_plan_diskEnvironment listsDisks_damagedScript hboot hselector

theorem yields_examine_damagedEnvironment (target : String) :
    Yields t (examine damagedEnvironment options target) true t := by
  have hmark : Output.mentions ⟨some 2, damageMark, ""⟩ damageMark = true := by
    rw [Output.mentions, Text.contains_self, Bool.true_or]
  have hstate : stateOf target ⟨some 2, damageMark, ""⟩ = .ok .damaged := by
    rw [stateOf, if_neg (by decide), if_pos hmark]
  have hcheck : Yields t (check damagedEnvironment target) .damaged t :=
    (Yields.run (answers_damagedEnvironment t _)).bind (.ofExcept t hstate)
  exact hcheck.bind <| (Yields.note t _).bind (.pure t true)

theorem yields_createPartition_damagedEnvironment (source : Source) (target : String)
    (index : Nat) : Yields t (createPartition damagedEnvironment config source target index) () t := by
  have hinfo : Provides t (Action.runChecked damagedEnvironment
      (infoCommand (tableDisk config source) index)) (Describes index) t :=
    .of_yields (.runChecked (answers_damagedEnvironment t _) rfl) (describes_bootListing index)
  exact yields_createPartition hinfo fun _ _ => (succeeds_damagedEnvironment rfl).provides

/-- Nothing stops the preparation of a target that is chosen. -/
theorem yields_makeReady_damagedEnvironment {plan : InstallPlan}
    (hplan : Yields t (Install.plan damagedEnvironment config options) plan t) :
    Yields t (makeReady damagedEnvironment config options) plan t :=
  yields_makeReady hplan (yields_examine_damagedEnvironment _)
    (yields_teardown
      (fun _ => yields_wipe (provides_damagedEnvironment t _) (provides_damagedEnvironment t _))
      (succeeds_damagedEnvironment rfl).provides (succeeds_damagedEnvironment rfl).provides)
    fun index _ => yields_createPartition_damagedEnvironment _ _ index

/-! ### Two disks of two partitions -/

def diskFiles (boot seed oldBoot oldSeed : ByteArray) : FileTree :=
  ⟨[(["boot"], .directory), (["dev"], .directory), (["dev", "vda1"], .file boot 0o644),
    (["dev", "vda2"], .file seed 0o644), (["dev", "vdb1"], .file oldBoot 0o644),
    (["dev", "vdb2"], .file oldSeed 0o644)], []⟩

/-- The target's seed partition is empty. -/
def diskMachine (seed : ByteArray) : Machine :=
  ⟨diskFiles "boot".toUTF8 seed "older".toUTF8 .empty, [], []⟩

theorem partitionPath_disks :
    partitionPath "/dev/vda" 1 = "/dev/vda1" ∧ partitionPath "/dev/vda" 2 = "/dev/vda2" ∧
      partitionPath "/dev/vdb" 1 = "/dev/vdb1" ∧ partitionPath "/dev/vdb" 2 = "/dev/vdb2" := by
  decide +kernel

variable {boot seed oldBoot oldSeed : ByteArray}

theorem onPartition_diskFiles (boot seed oldBoot oldSeed : ByteArray) :
    Bundle.onPartition (diskFiles boot seed oldBoot oldSeed) "/dev/vda2" = Bundle.ofBytes seed ∧
      Bundle.onPartition (diskFiles boot seed oldBoot oldSeed) "/dev/vdb2" = Bundle.ofBytes oldSeed :=
  ⟨rfl, rfl⟩

theorem read_diskFiles (boot seed oldBoot oldSeed : ByteArray) :
    (diskFiles boot seed oldBoot oldSeed).read (partitionPath "/dev/vda" 1) = .ok boot ∧
      (diskFiles boot seed oldBoot oldSeed).read (partitionPath "/dev/vda" 2) = .ok seed ∧
      (diskFiles boot seed oldBoot oldSeed).read (partitionPath "/dev/vdb" 2) = .ok oldSeed := by
  obtain ⟨hboot, hseed, -, hseed'⟩ := partitionPath_disks
  rw [hboot, hseed, hseed']
  exact ⟨rfl, rfl, rfl⟩

theorem openExisting_diskFiles (boot seed oldBoot oldSeed : ByteArray) :
    (diskFiles boot seed oldBoot oldSeed).openExisting (partitionPath "/dev/vdb" 1) =
        .ok (["dev", "vdb1"], oldBoot, 0o644) ∧
      (diskFiles boot seed oldBoot oldSeed).openExisting (partitionPath "/dev/vdb" 2) =
        .ok (["dev", "vdb2"], oldSeed, 0o644) := by
  obtain ⟨-, -, hboot', hseed'⟩ := partitionPath_disks
  rw [hboot', hseed']
  exact ⟨rfl, rfl⟩

theorem refill_diskFiles (boot seed oldBoot oldSeed content : ByteArray) :
    (diskFiles boot seed oldBoot oldSeed).refill ["dev", "vdb1"] content =
        diskFiles boot seed content oldSeed ∧
      (diskFiles boot seed oldBoot oldSeed).refill ["dev", "vdb2"] content =
        diskFiles boot seed oldBoot content := ⟨rfl, rfl⟩

/-- A copy over an empty partition brings just what the other one holds. -/
theorem overlay_empty (content : ByteArray) :
    Copy.overlay content .empty content.size = content := by
  rw [Copy.overlay_size, Copy.append_extract_of_le (Nat.zero_le _)]

theorem yields_copies_diskFiles : Yields (diskFiles boot seed oldBoot .empty)
    (copies damagedEnvironment config damagedPlan.source "/dev/vdb" [1, 2]) ⟨⟩
    (diskFiles boot seed (Copy.overlay boot oldBoot boot.size) seed) := by
  have hfirst := @yields_copyPartition damagedEnvironment config _ damagedPlan.source "/dev/vdb" 1
    _ _ _ _ nofun (read_diskFiles boot seed oldBoot .empty).1
    (openExisting_diskFiles boot seed oldBoot .empty).1
  rw [(refill_diskFiles ..).1] at hfirst
  have hsecond := @yields_copyPartition damagedEnvironment config _ damagedPlan.source "/dev/vdb" 2
    _ _ _ _ nofun (read_diskFiles boot seed (Copy.overlay boot oldBoot boot.size) .empty).2.1
    (openExisting_diskFiles boot seed (Copy.overlay boot oldBoot boot.size) .empty).2
  rw [(refill_diskFiles ..).2, overlay_empty] at hsecond
  exact hfirst.marking.bind (hsecond.marking.bind (.pure _ PUnit.unit))

/-- An installation from the one disk to the other runs to its end, whatever seeds there are, if those
that stay can be archived. -/
theorem yields_furnish_diskFiles (hseeds : Bundle.ofBytes seed = .ok s)
    (hwhole : (s.remove Source.installSeed).toArchive.2 = none)
    (hforced : options.forceReboot = true) : ∃ t', Yields (diskFiles boot seed oldBoot .empty)
      (furnish damagedEnvironment (cloneConfig 2) options damagedPlan.source "/dev/vdb") (some 5000)
      t' := by
  have hpath : partitionPath "/dev/vdb" (cloneConfig 2).layout.seed = "/dev/vdb2" :=
    partitionPath_disks.2.2.2
  have hload : Bundle.onPartition (diskFiles boot seed (Copy.overlay boot oldBoot boot.size) seed)
      (partitionPath "/dev/vdb" (cloneConfig 2).layout.seed) = .ok s := by
    rw [hpath, ← hseeds]
    exact (onPartition_diskFiles ..).2
  have hover : (s.remove Source.installSeed).overwrite
      (partitionPath "/dev/vdb" (cloneConfig 2).layout.seed)
      (diskFiles boot seed (Copy.overlay boot oldBoot boot.size) seed) =
        .ok (diskFiles boot seed (Copy.overlay boot oldBoot boot.size)
          (s.remove Source.installSeed).toArchive.1) := by
    rw [hpath]
    rfl
  exact ⟨_, yields_furnish yields_copies_diskFiles (yields_removeSeed hload hwhole hover) hforced⟩

theorem makeReady_diskMachine (hselector : options.selector = none) (seed : ByteArray) : ∃ m₁,
    (makeReady damagedEnvironment (cloneConfig 2) options).perform (diskMachine seed) =
      (.ok damagedPlan, m₁) ∧ m₁.files = (diskMachine seed).files :=
  yields_makeReady_damagedEnvironment (yields_plan_damagedEnvironment rfl hselector) _ rfl

theorem run_diskMachine (hseeds : Bundle.ofBytes seed = .ok s)
    (hwhole : (s.remove Source.installSeed).toArchive.2 = none) : ∃ m',
    (Install.run damagedEnvironment (cloneConfig 2) { forceReboot := true }).perform
      (diskMachine seed) = (.ok (some 5000), m') := by
  obtain ⟨t', hfurnish⟩ := @yields_furnish_diskFiles { forceReboot := true } s "boot".toUTF8 seed
    "older".toUTF8 hseeds hwhole rfl
  have hready : Yields (diskMachine seed).files (makeReady damagedEnvironment (cloneConfig 2)
      { forceReboot := true }) damagedPlan (diskMachine seed).files :=
    yields_makeReady_damagedEnvironment (yields_plan_damagedEnvironment rfl rfl)
  obtain ⟨m', hrun, -⟩ := yields_run hready hfurnish _ rfl
  exact ⟨m', hrun⟩

/-- What does not begin like an archive holds no request. -/
theorem ofBytes_of_not_archive (h : Archive.hasMagic seed = false) :
    Bundle.ofBytes seed = .ok .empty := by
  rw [Bundle.ofBytes, h]
  rfl

theorem run_diskMachine_plain : ∃ m',
    (Install.run damagedEnvironment (cloneConfig 2) { forceReboot := true }).perform
      (diskMachine "seed".toUTF8) = (.ok (some 5000), m') :=
  run_diskMachine (ofBytes_of_not_archive (by decide)) rfl

/-! ### An optical drive and a disk -/

/-- What is read from the drive is copied to two partitions. -/
def opticalConfig : Config := { layout := { cloneCountReadOnly := 2 } }

def opticalOptions : InstallOptions := { forceReboot := true, target := some "b" }

def opticalPlan : InstallPlan :=
  ⟨⟨"/dev/mapper/sr0", true, true⟩, ⟨"/dev/vdb", "b", 99999999999⟩, sampleDisks⟩

def opticalFiles (oldBoot oldSeed : ByteArray) : FileTree :=
  ⟨[(["dev"], .directory), (["dev", "mapper"], .directory), (["dev", "sr0"], .file .empty 0o644),
    (["dev", "mapper", "sr0p1"], .file "boot".toUTF8 0o644),
    (["dev", "mapper", "sr0p2"], .file "seed".toUTF8 0o644),
    (["dev", "vdb1"], .file oldBoot 0o644), (["dev", "vdb2"], .file oldSeed 0o644)], []⟩

def opticalMachine : Machine := ⟨opticalFiles "older".toUTF8 .empty, [], []⟩

theorem selectTarget_opticalMachine : Disk.selectTarget opticalMachine.files opticalConfig
    opticalPlan.source sampleDisks opticalOptions.selector = .ok opticalPlan.target :=
  Action.eq_ok_of_toOption (by decide +kernel)

theorem yields_plan_opticalMachine : Yields opticalMachine.files
    (Install.plan damagedEnvironment opticalConfig opticalOptions) opticalPlan
    opticalMachine.files := by
  have hdetect : Yields opticalMachine.files (Source.detect damagedEnvironment opticalConfig)
      opticalPlan.source opticalMachine.files := by
    refine .get_bind fun m hm => ?_
    rw [hm]
    exact (Yields.note _ _).bind (.pure _ _)
  refine hdetect.bind <| (yields_all_diskEnvironment listsDisks_damagedScript _).bind <|
    .get_bind fun m hm => ?_
  rw [hm]
  exact (Yields.ofExcept _ selectTarget_opticalMachine).bind (.pure _ _)

theorem partitionPath_optical :
    partitionPath "/dev/mapper/sr0" 1 = "/dev/mapper/sr0p1" ∧
      partitionPath "/dev/mapper/sr0" 2 = "/dev/mapper/sr0p2" := by
  decide +kernel

theorem yields_copies_opticalMachine : Yields opticalMachine.files
    (copies damagedEnvironment opticalConfig opticalPlan.source "/dev/vdb" [1, 2]) ⟨⟩
    (opticalFiles (Copy.overlay "boot".toUTF8 "older".toUTF8 "boot".toUTF8.size)
      "seed".toUTF8) := by
  obtain ⟨horigin, horigin'⟩ := partitionPath_optical
  obtain ⟨-, -, hcopy, hcopy'⟩ := partitionPath_disks
  have hfirst := @yields_copyPartition damagedEnvironment opticalConfig
    (opticalFiles "older".toUTF8 .empty) opticalPlan.source "/dev/vdb" 1 "boot".toUTF8
    "older".toUTF8 ["dev", "vdb1"] 0o644 nofun (by rw [opticalPlan, horigin]; rfl)
    (by rw [hcopy]; rfl)
  have hsecond := @yields_copyPartition damagedEnvironment opticalConfig
    (opticalFiles (Copy.overlay "boot".toUTF8 "older".toUTF8 "boot".toUTF8.size) .empty)
    opticalPlan.source "/dev/vdb" 2 "seed".toUTF8 .empty ["dev", "vdb2"] 0o644 nofun
    (by rw [opticalPlan, horigin']; rfl) (by rw [hcopy']; rfl)
  rw [overlay_empty] at hsecond
  exact hfirst.marking.bind (hsecond.marking.bind (.pure _ PUnit.unit))

theorem run_opticalMachine : ∃ m', (Install.run damagedEnvironment opticalConfig
    opticalOptions).perform opticalMachine = (.ok (some 5000), m') := by
  have hpath : partitionPath "/dev/vdb" opticalConfig.layout.seed = "/dev/vdb2" :=
    partitionPath_disks.2.2.2
  have hload : Bundle.onPartition (opticalFiles (Copy.overlay "boot".toUTF8 "older".toUTF8
      "boot".toUTF8.size) "seed".toUTF8) (partitionPath "/dev/vdb" opticalConfig.layout.seed) =
        .ok .empty := by
    rw [hpath, ← ofBytes_of_not_archive (show Archive.hasMagic "seed".toUTF8 = false by decide)]
    rfl
  have hremove := @yields_removeSeed opticalConfig _ _ "/dev/vdb" _ hload rfl (by rw [hpath]; rfl)
  obtain ⟨m', hrun, -⟩ := yields_run (yields_makeReady_damagedEnvironment yields_plan_opticalMachine)
    (yields_furnish yields_copies_opticalMachine hremove rfl) opticalMachine rfl
  exact ⟨m', hrun⟩

end Install

end Groundwork
