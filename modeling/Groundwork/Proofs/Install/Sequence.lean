import Groundwork.Proofs.Install.Phases
import Groundwork.Proofs.Path

/-! The sequence of the commands of an installation, which of them let it go on, and the phases that
keep to it: the look at the target's table, the teardown, and the partitions. -/
namespace Groundwork

variable {env : Environment} {config : Config} {options : InstallOptions} {m m' : Machine}

namespace Attempt

variable (env)

/-- What an answer says of an entry. -/
def listed (a : Attempt) (index : Nat) : Except Failure Partition := do
  let output ← a.checked env
  if output.mentions PartitionTable.noPartitionMark then
    .error (Action.commandFailure a.command output)
  else PartitionTable.entryOf index output.stdout

/-- The entry that an answer describes, with the code of its type. -/
def described? (a : Attempt) (index : Nat) : Option (Partition × String) := do
  let p ← (a.listed env index).toOption
  let code ← p.typeCode?
  some (p, code)

end Attempt

namespace PartitionTable

theorem infoCommand_inj {disk : String} {i j : Nat} (h : infoCommand disk i = infoCommand disk j) :
    i = j := by
  have harguments : ["-i", i.repr, disk] = ["-i", j.repr, disk] := congrArg (·.arguments) h
  exact Text.eq_of_repr_eq (by simpa using harguments)

theorem index_entryOf {index : Nat} {listing : String} {p : Partition}
    (h : entryOf index listing = .ok p) : p.index = index := by
  unfold entryOf at h
  simp only [bind, Except.bind] at h
  repeat' split at h
  all_goals cases h
  rfl

theorem index_listed {a : Attempt} {index : Nat} {p : Partition}
    (h : a.listed env index = .ok p) : p.index = index := by
  unfold Attempt.listed at h
  cases hc : a.checked env with
  | error e =>
    rw [hc] at h
    cases h
  | ok o =>
    rw [hc, Action.ok_bind] at h
    split at h
    · cases h
    · exact index_entryOf h

theorem perform_info (disk : String) (index : Nat) (m : Machine) :
    (info env disk index).perform m =
      (Attempt.listed env ⟨m, infoCommand disk index⟩ index,
        Attempt.after env ⟨m, infoCommand disk index⟩) := by
  unfold info
  rw [Action.perform_bind, Action.perform_runChecked, Attempt.listed]
  cases Attempt.checked env ⟨m, infoCommand disk index⟩ with
  | error e => rfl
  | ok o =>
    simp only [Action.ok_bind]
    split <;> rfl

/-- The attempt to make an entry. -/
def creation (disk : String) (p : Partition) (code : String) (m : Machine) : Attempt :=
  ⟨m.record (.logged .info s!"Creating partition {p.index} ({p.typeName}) on {disk}"),
    createCommand disk p code⟩

theorem perform_create (disk : String) (p : Partition) (m : Machine) :
    (create env disk p).perform m = match p.typeCode? with
      | none => (.error (.invalidInput
          s!"Unrecognized partition type '{p.typeName}' for partition {p.index}"), m)
      | some code => (((creation disk p code m).checked env).map fun _ => (),
          (creation disk p code m).after env) := by
  unfold create
  cases p.typeCode? with
  | none => rfl
  | some code =>
    dsimp only
    rw [Action.perform_bind_of_ok _ (Action.perform_logInfo _ m), Action.perform_bind,
      Action.perform_runChecked, creation]
    cases Attempt.checked env ⟨_, createCommand disk p code⟩ <;> rfl

end PartitionTable

namespace Install

open PartitionTable

/-! ### The sequence -/

section

variable (env config options) (plan : InstallPlan) (entries : Nat → Partition × String)

/-- The commands that prepare a disk and release the source. -/
def releasing (target : String) (wipes : Bool) : List Command :=
  (if wipes then [⟨"sgdisk", ["-Z", target]⟩, ⟨"blkdiscard", ["-f", target]⟩] else []) ++
    [⟨"swapoff", ["-a"]⟩, ⟨"umount", [config.paths.bootMount]⟩]

/-- The commands that make partitions again: for each of them a look at the source's table and the
creation of that entry. -/
def cloning (source target : String) (indices : List Nat) : List Command :=
  indices.flatMap fun index =>
    let (p, code) := entries index
    [⟨"sgdisk", ["-i", toString index, source]⟩,
      ⟨"sgdisk", ["-n", s!"{p.index}::+{p.size}", "-u", s!"{p.index}:{p.guid.text}",
        "-t", s!"{p.index}:{code}", "-c", s!"{p.index}:{p.name}", target]⟩]

/-- The commands of an installation, in this order. -/
def sequence (wipes : Bool) : List Command :=
  Disk.listings ++ (⟨"sgdisk", ["-v", plan.target.kernelName]⟩ ::
    (releasing config plan.target.kernelName wipes ++
      cloning entries (tableDisk config plan.source) plan.target.kernelName
        (partitionNumbers config plan.source)))

/-- Whether an installation goes on after an attempt. An intact table is only passed by force. What
the tools that wipe exit with does not matter. Media that cannot be written to may stay mounted.
Anything else has to succeed, and a look at an entry has to describe one that can be made again. -/
def goesOn (a : Attempt) : Bool :=
  if a.command = checkCommand plan.target.kernelName then
    (a.tableState? env).any fun s => s != .present || options.forceInstall
  else if a.command = zapCommand plan.target.kernelName ∨
      a.command = discardCommand plan.target.kernelName then (a.answer env).isOk
  else if a.command = unmountCommand config.paths.bootMount then
    a.succeeds env || plan.source.readOnly
  else a.succeeds env && (partitionNumbers config plan.source).all fun index =>
    a.command != infoCommand (tableDisk config plan.source) index ||
      a.described? env index == some (entries index)

end

variable {plan : InstallPlan} {entries : Nat → Partition × String} {wipes : Bool}

theorem mem_cloning {source target : String} {indices : List Nat} {c : Command}
    (h : c ∈ cloning entries source target indices) : ∃ index ∈ indices,
      c = infoCommand source index ∨
        c = createCommand target (entries index).1 (entries index).2 := by
  obtain ⟨index, hindex, hc⟩ := List.mem_flatMap.1 h
  rcases List.mem_cons.1 hc with hc | hc
  · exact ⟨index, hindex, .inl hc⟩
  · exact ⟨index, hindex, .inr (List.mem_singleton.1 hc)⟩

theorem createCommand_mem_cloning {indices : List Nat} {index : Nat} (source target : String)
    (h : index ∈ indices) : createCommand target (entries index).1 (entries index).2 ∈
      cloning entries source target indices :=
  List.mem_flatMap.2 ⟨index, h, .tail _ List.mem_cons_self⟩

theorem succeeds_of_described? {a : Attempt} {index : Nat} {e : Partition × String}
    (h : a.described? env index = some e) : a.succeeds env = true := by
  rw [← Attempt.isOk_checked]
  unfold Attempt.described? Attempt.listed at h
  cases hc : a.checked env with
  | error e => simp [hc, bind, Except.bind, Except.toOption] at h
  | ok o => rfl

theorem goesOn_check (m : Machine) :
    goesOn env config options plan entries ⟨m, checkCommand plan.target.kernelName⟩ =
      (Attempt.tableState? env ⟨m, checkCommand plan.target.kernelName⟩).any
        fun s => s != .present || options.forceInstall :=
  if_pos rfl

theorem goesOn_wipe {m : Machine} {c : Command}
    (h : c = zapCommand plan.target.kernelName ∨ c = discardCommand plan.target.kernelName) :
    goesOn env config options plan entries ⟨m, c⟩ = (Attempt.answer env ⟨m, c⟩).isOk := by
  have hcheck : c ≠ checkCommand plan.target.kernelName := by
    rcases h with rfl | rfl <;> simp [zapCommand, discardCommand, checkCommand, tool]
  rw [goesOn, if_neg hcheck, if_pos h]

theorem goesOn_unmount (m : Machine) :
    goesOn env config options plan entries ⟨m, unmountCommand config.paths.bootMount⟩ =
      (Attempt.succeeds env ⟨m, unmountCommand config.paths.bootMount⟩ || plan.source.readOnly) := by
  simp [goesOn, unmountCommand, checkCommand, zapCommand, discardCommand, tool]

/-- Whether a command is none of those whose failure may be passed over. -/
def IsPlain (config : Config) (target : String) (c : Command) : Prop :=
  c ≠ checkCommand target ∧ c ≠ zapCommand target ∧ c ≠ discardCommand target ∧
    c ≠ unmountCommand config.paths.bootMount

theorem succeeds_of_goesOn {a : Attempt} (h : IsPlain config plan.target.kernelName a.command)
    (hgoes : goesOn env config options plan entries a = true) : a.succeeds env = true := by
  obtain ⟨hcheck, hzap, hdiscard, hunmount⟩ := h
  rw [goesOn, if_neg hcheck, if_neg (not_or.2 ⟨hzap, hdiscard⟩), if_neg hunmount] at hgoes
  exact (Bool.and_eq_true_iff.1 hgoes).1

theorem goesOn_of_plain {a : Attempt} (h : IsPlain config plan.target.kernelName a.command)
    (hinfo : ∀ index, a.command ≠ infoCommand (tableDisk config plan.source) index) :
    goesOn env config options plan entries a = a.succeeds env := by
  obtain ⟨hcheck, hzap, hdiscard, hunmount⟩ := h
  rw [goesOn, if_neg hcheck, if_neg (not_or.2 ⟨hzap, hdiscard⟩), if_neg hunmount]
  simp [hinfo]

theorem tableState?_of_fails {a : Attempt} (hfail : a.succeeds env = false)
    (hdamaged : a.tableState? env ≠ some .damaged) : a.tableState? env = none := by
  unfold Attempt.succeeds at hfail
  unfold Attempt.tableState? Attempt.answer at hdamaged ⊢
  cases htool : env.tool a.machine a.command with
  | none => rfl
  | some r =>
    simp only [htool, Option.any_some] at hfail
    simp only [htool, Except.toOption, Option.bind_eq_bind, Option.bind_some, hfail,
      Bool.false_eq_true, if_false] at hdamaged ⊢
    split
    · next hmark => exact absurd (if_pos hmark) hdamaged
    · rfl

theorem not_goesOn_of_fails {a : Attempt} (hzap : a.command ≠ zapCommand plan.target.kernelName)
    (hdiscard : a.command ≠ discardCommand plan.target.kernelName)
    (hunmount : a.command ≠ unmountCommand config.paths.bootMount)
    (hdamaged : a.command = checkCommand plan.target.kernelName →
      a.tableState? env ≠ some .damaged)
    (hfail : a.succeeds env = false) :
    goesOn env config options plan entries a = false := by
  by_cases hcheck : a.command = checkCommand plan.target.kernelName
  · rw [goesOn, if_pos hcheck, tableState?_of_fails hfail (hdamaged hcheck)]
    rfl
  · refine Bool.eq_false_iff.2 fun hgoes => ?_
    rw [succeeds_of_goesOn ⟨hcheck, hzap, hdiscard, hunmount⟩ hgoes] at hfail
    cases hfail

theorem isPlain_infoCommand (target source : String) (index : Nat) :
    IsPlain config target (infoCommand source index) := by
  simp [IsPlain, infoCommand, checkCommand, zapCommand, discardCommand, unmountCommand, tool]

theorem goesOn_info (m : Machine) {index : Nat} (h : index ∈ partitionNumbers config plan.source) :
    goesOn env config options plan entries ⟨m, infoCommand (tableDisk config plan.source) index⟩ =
      (Attempt.described? env ⟨m, infoCommand (tableDisk config plan.source) index⟩ index ==
        some (entries index)) := by
  obtain ⟨hcheck, hzap, hdiscard, hunmount⟩ :=
    @isPlain_infoCommand config plan.target.kernelName (tableDisk config plan.source) index
  rw [goesOn, if_neg hcheck, if_neg (not_or.2 ⟨hzap, hdiscard⟩), if_neg hunmount]
  rw [Bool.eq_iff_iff, Bool.and_eq_true_iff, List.all_eq_true, beq_iff_eq]
  constructor
  · rintro ⟨-, hall⟩
    simpa using hall index h
  · intro hentry
    refine ⟨succeeds_of_described? hentry, ?_⟩
    intro j hj
    by_cases hij : infoCommand (tableDisk config plan.source) index =
        infoCommand (tableDisk config plan.source) j
    · rw [← infoCommand_inj hij]
      simp [hentry]
    · simp [hij]

theorem goesOn_create (m : Machine) (p : Partition) (code : String) :
    goesOn env config options plan entries ⟨m, createCommand plan.target.kernelName p code⟩ =
      Attempt.succeeds env ⟨m, createCommand plan.target.kernelName p code⟩ := by
  refine goesOn_of_plain ?_ ?_
  · simp [IsPlain, createCommand, checkCommand, zapCommand, discardCommand, unmountCommand, tool]
  · simp [createCommand, infoCommand, tool]

/-! ### The look at the target's table -/

theorem examine_cases (target : String) (m : Machine) :
    ∃ r m', (examine env options target).perform m = (r, m') ∧
      Course env Machine.Reports m [⟨m, checkCommand target⟩] m' ∧
      (r.isOk = (Attempt.tableState? env ⟨m, checkCommand target⟩).any
        fun s => s != .present || options.forceInstall) ∧
      ∀ wipes, r = .ok wipes → wipes = (options.forceInstall ||
        Attempt.tableState? env ⟨m, checkCommand target⟩ == some .damaged) := by
  have hasked : Course env Machine.Reports m [⟨m, checkCommand target⟩]
      (Attempt.after env ⟨m, checkCommand target⟩) := .ask _ (.refl _)
  have hstate := @toOption_check env target m
  unfold examine
  rw [Action.perform_bind, ← hstate, perform_check]
  cases (Attempt.answer env ⟨m, checkCommand target⟩).bind (stateOf target) with
  | error e => exact ⟨.error e, _, rfl, hasked, rfl, fun _ h => by cases h⟩
  | ok state =>
    cases state with
    | absent => exact ⟨_, _, rfl, hasked, rfl, fun _ h => by cases h; simp [Except.toOption]⟩
    | damaged =>
      have hwhole := hasked.append (.quiet (.logged .warning
        s!"{target} has a damaged partition table, installing over it") (.refl _))
      exact ⟨.ok true, _, rfl, hwhole, rfl, fun _ h => by cases h; simp [Except.toOption]⟩
    | present =>
      simp only [mustWipe]
      cases hf : options.forceInstall with
      | true => exact ⟨.ok true, _, rfl, hasked, rfl, fun _ h => by cases h; rfl⟩
      | false => exact ⟨.error _, _, rfl, hasked, rfl, fun _ h => by cases h⟩

/-! ### The teardown -/

theorem obeys_unmountBoot (m : Machine) :
    Obeys env (goesOn env config options plan entries) (unmountBoot env config plan.source)
      [unmountCommand config.paths.bootMount] m := by
  have hlog := @Obeys.logInfo env m (goesOn env config options plan entries)
    s!"Unmounting {config.paths.bootMount}"
  refine hlog.bind fun _ m₁ _ => ?_
  have hrun : (Action.attempt (Action.runChecked env
      (unmountCommand config.paths.bootMount))).perform m₁ =
        (.ok (Attempt.checked env ⟨m₁, unmountCommand config.paths.bootMount⟩),
          Attempt.after env ⟨m₁, unmountCommand config.paths.bootMount⟩) := by
    rw [Action.perform_attempt, Action.perform_runChecked]
  have hpass := @goesOn_unmount env config options plan entries m₁
  rw [← Attempt.isOk_checked] at hpass
  unfold Obeys
  rw [Action.perform_bind_of_ok _ hrun]
  cases hc : Attempt.checked env ⟨m₁, unmountCommand config.paths.bootMount⟩ with
  | ok o =>
    rw [hc] at hpass
    exact ⟨_, .ask _ (.refl _), .passed hpass .finished⟩
  | error e =>
    rw [hc] at hpass
    cases hro : plan.source.readOnly with
    | true =>
      rw [hro] at hpass
      exact ⟨_, .ask _ (.quiet (.logged _ _) (.refl _)), .passed hpass .finished⟩
    | false =>
      rw [hro] at hpass
      exact ⟨_, .ask _ (.refl _), .stopped hpass⟩

theorem obeys_teardown (wipes : Bool) (m : Machine) :
    Obeys env (goesOn env config options plan entries)
      (teardown env config plan.source plan.target.kernelName wipes)
      (releasing config plan.target.kernelName wipes) m := by
  have hwipe (m : Machine) : Obeys env (goesOn env config options plan entries)
      (wipe env plan.target.kernelName)
      [zapCommand plan.target.kernelName, discardCommand plan.target.kernelName] m := by
    have hzap (m : Machine) : Obeys env (goesOn env config options plan entries)
        (zap env plan.target.kernelName) [zapCommand plan.target.kernelName] m :=
      (Obeys.logInfo _).bind fun _ _ _ =>
        (Obeys.run (goesOn_wipe (.inl rfl))).bind fun _ _ _ => .pure _
    exact (hzap m).bind fun _ _ _ => (Obeys.logInfo _).bind fun _ _ _ =>
      (Obeys.run (goesOn_wipe (.inr rfl))).bind fun _ _ _ => .pure _
  have hswapoff (m : Machine) : goesOn env config options plan entries ⟨m, swapoffCommand⟩ =
      Attempt.succeeds env ⟨m, swapoffCommand⟩ := by
    refine goesOn_of_plain ?_ ?_
    · simp [IsPlain, swapoffCommand, checkCommand, zapCommand, discardCommand, unmountCommand, tool]
    · simp [swapoffCommand, infoCommand, tool]
  have hrelease (m : Machine) := (@Obeys.logInfo env m (goesOn env config options plan entries)
    "Disabling swap").bind fun _ m₁ _ =>
      (Obeys.runChecked (hswapoff m₁)).bind fun _ m₂ _ => obeys_unmountBoot m₂
  cases wipes with
  | true => exact (hwipe m).bind fun _ m₁ _ => hrelease m₁
  | false => exact hrelease m

/-! ### The partitions -/

/-- An entry for a partition that no answer has described. -/
def undescribed (index : Nat) : Partition × String :=
  (⟨index, "", ⟨List.replicate 32 ⟨0, Nat.succ_pos 15⟩, List.length_replicate⟩, "", ""⟩, "")

/-- The look at an entry of the source's table. -/
def look (config : Config) (source : Source) (index : Nat) (m : Machine) : Attempt :=
  ⟨m.record (.told (.message
      s!"Creating partition {index} of {config.layout.clones source.readOnly}")),
    infoCommand (tableDisk config source) index⟩

theorem perform_createPartition (source : Source) (target : String) (index : Nat) (m : Machine) :
    (createPartition env config source target index).perform m =
      match (look config source index m).listed env index with
      | .ok p => (create env target p).perform ((look config source index m).after env)
      | .error e => (.error e, (look config source index m).after env) := by
  unfold createPartition
  rw [Action.perform_bind_of_ok _ (Action.perform_announce _ m), Action.perform_bind, perform_info,
    tableDevice_eq, look]
  cases Attempt.listed env ⟨_, infoCommand (tableDisk config source) index⟩ index <;> rfl

/-- A partition is made again if its entry is described; and then it is made as described. -/
theorem createPartition_cases (source : Source) (target : String) (index : Nat) (m : Machine) :
    ((look config source index m).described? env index = none ∧
      ∃ e m', (createPartition env config source target index).perform m = (.error e, m') ∧
        Course env Machine.Reports m [look config source index m] m') ∨
    ∃ p code m₁ m', (look config source index m).described? env index = some (p, code) ∧
      p.index = index ∧
      (createPartition env config source target index).perform m =
        ((Attempt.checked env ⟨m₁, createCommand target p code⟩).map fun _ => (), m') ∧
      Course env Machine.Reports m
        [look config source index m, ⟨m₁, createCommand target p code⟩] m' := by
  have hlook : Course env Machine.Reports m [look config source index m]
      ((look config source index m).after env) := .quiet (.told _) (.ask _ (.refl _))
  rw [perform_createPartition, Attempt.described?]
  cases hl : (look config source index m).listed env index with
  | error e => exact .inl ⟨rfl, e, _, rfl, hlook⟩
  | ok p =>
    simp only [perform_create]
    cases hcode : p.typeCode? with
    | none => exact .inl ⟨by simp [Except.toOption, hcode], _, _, rfl, hlook⟩
    | some code =>
      exact .inr ⟨p, code, _, _, by simp [Except.toOption, hcode], index_listed hl, rfl,
        hlook.append (.quiet (.logged _ _) (.ask _ (.refl _)))⟩

theorem obeys_createPartition {index : Nat} (hmem : index ∈ partitionNumbers config plan.source)
    (hentry : ∀ e, (look config plan.source index m).described? env index = some e →
      entries index = e) :
    Obeys env (goesOn env config options plan entries)
      (createPartition env config plan.source plan.target.kernelName index)
      [infoCommand (tableDisk config plan.source) index,
        createCommand plan.target.kernelName (entries index).1 (entries index).2] m := by
  have hpass : goesOn env config options plan entries (look config plan.source index m) =
      ((look config plan.source index m).described? env index == some (entries index)) :=
    goesOn_info _ hmem
  unfold Obeys
  rcases @createPartition_cases env config plan.source plan.target.kernelName index m with
    ⟨hnone, e, m', hperform, hcourse⟩ | ⟨p, code, m₁, m', hsome, -, hperform, hcourse⟩
  · rw [hnone] at hpass
    rw [hperform]
    exact ⟨_, hcourse, .stopped hpass⟩
  · have hthis := hentry _ hsome
    rw [hsome, hthis, beq_self_eq_true] at hpass
    have hcreate := @goesOn_create env config options plan entries m₁ p code
    rw [← Attempt.isOk_checked] at hcreate
    rw [hthis, hperform]
    refine ⟨_, hcourse, .passed hpass ?_⟩
    cases hc : Attempt.checked env ⟨m₁, createCommand plan.target.kernelName p code⟩ with
    | error e =>
      rw [hc] at hcreate
      exact .stopped hcreate
    | ok o =>
      rw [hc] at hcreate
      exact .passed hcreate .finished

theorem index_described? {a : Attempt} {index : Nat} {e : Partition × String}
    (h : a.described? env index = some e) : e.1.index = index := by
  unfold Attempt.described? at h
  cases hl : a.listed env index with
  | error e => simp [hl, Except.toOption] at h
  | ok p =>
    cases hc : p.typeCode? with
    | none => simp [hl, hc, Except.toOption] at h
    | some code =>
      simp only [hl, hc, Except.toOption, Option.bind_eq_bind, Option.bind_some,
        Option.some.injEq] at h
      rw [← h, index_listed hl]

/-- Induction on the partitions. The entries of the later ones are described on later machines, so
the entry of a partition is added to those that the induction gives. -/
theorem obeys_creations (env : Environment) (options : InstallOptions) {indices : List Nat}
    (hmem : ∀ index ∈ indices, index ∈ partitionNumbers config plan.source) (hnodup : indices.Nodup)
    (m : Machine) : ∃ entries : Nat → Partition × String,
      (∀ index, (entries index).1.index = index) ∧
      Obeys env (goesOn env config options plan entries)
        (indices.forM fun index => Action.marking "Creating partitions"
          (createPartition env config plan.source plan.target.kernelName index))
        (cloning entries (tableDisk config plan.source) plan.target.kernelName indices) m := by
  induction indices generalizing m with
  | nil => exact ⟨undescribed, fun _ => rfl, .pure _⟩
  | cons index indices ih =>
    obtain ⟨hfresh, hnodup⟩ := List.nodup_cons.1 hnodup
    obtain ⟨later, hnumbered, hlater⟩ := ih (fun i hi => hmem i (.tail _ hi)) hnodup
      ((createPartition env config plan.source plan.target.kernelName index).perform m).2
    let this := ((look config plan.source index m).described? env index).getD (undescribed index)
    have hthis : this.1.index = index := by
      cases he : (look config plan.source index m).described? env index with
      | none => simp [this, he, undescribed]
      | some e => simpa [this, he] using index_described? he
    let entries := fun i => if i = index then this else later i
    have hold (i : Nat) (hi : i ∈ indices) : entries i = later i := by
      have hne : i ≠ index := fun h => hfresh (h ▸ hi)
      simp [entries, hne]
    refine ⟨entries, ?_, ?_⟩
    · intro i
      by_cases hi : i = index
      · simp [entries, hi, hthis]
      · simp [entries, hi, hnumbered]
    · have hfirst : Obeys env (goesOn env config options plan entries)
          (createPartition env config plan.source plan.target.kernelName index)
          [infoCommand (tableDisk config plan.source) index,
            createCommand plan.target.kernelName (entries index).1 (entries index).2] m := by
        refine obeys_createPartition (hmem index List.mem_cons_self) ?_
        intro e he
        simp [entries, this, he]
      have hsame : cloning entries (tableDisk config plan.source) plan.target.kernelName indices =
          cloning later (tableDisk config plan.source) plan.target.kernelName indices := by
        refine congrArg List.flatten (List.map_congr_left ?_)
        intro i hi
        rw [hold i hi]
      refine (hfirst.marking _).bind fun x m₁ hp => ?_
      change Obeys env _ _ (cloning entries _ _ indices) m₁
      rw [Action.perform_marking] at hp
      obtain ⟨-, rfl⟩ := Prod.mk.inj hp
      rw [hsame]
      refine hlater.congr ?_
      intro m c hc
      obtain ⟨i, hi, rfl | rfl⟩ := mem_cloning hc
      · rw [goesOn_info m (hmem i (.tail _ hi)), goesOn_info m (hmem i (.tail _ hi)), hold i hi]
      · rw [goesOn_create, goesOn_create]

end Install

end Groundwork
