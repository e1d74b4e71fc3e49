import Groundwork.Proofs.Copy
import Groundwork.Proofs.Install.Boundary
import Groundwork.Proofs.Seed

/-! The phases of an installation behind the choice of its target: the look at the target's table,
the preparation up to the last partition, the contents, and the end. Only the first two ask for
tools, and only the third fills files. -/
namespace Groundwork

namespace Machine

/-- A relation that is kept to by steps that ask for no tool and fill only the files of some
paths. -/
structure Fills (paths : List String) (R : Machine → Machine → Prop) : Prop extends Chains R where
  record : ∀ m v, (∀ call, v ≠ .ran call) → R m (m.record v)
  refill : ∀ m path place old content t, path ∈ paths → m.files.read path = .ok old →
    m.files.locate path true = .ok place → FileTree.Refilled m.files t place content →
    R m (m.wrote path t)

/-- One that is also kept to while time goes by, until a reboot. -/
structure Admits (env : Environment) (paths : List String) (R : Machine → Machine → Prop) : Prop
    extends Fills paths R where
  elapse : ∀ m, R m { m with files := env.elapse m }
  arm : ∀ m delay, R m { m with armed := m.armed ++ [delay] }

end Machine

namespace Machine.Fills

variable {env : Environment} {paths : List String} {R : Machine → Machine → Prop}
  {path origin : String}

theorem tell (h : Fills paths R) (n : Notice) : Action.Within R (Action.tell n) :=
  fun m => h.record m _ (by simp)

theorem log (h : Fills paths R) (text : String) : Action.Within R (Action.logInfo text) :=
  fun m => h.record m _ (by simp)

theorem still {α : Type} (h : Fills paths R) {a : Action α}
    (ha : ∀ m, (a.perform m).2 = m) : Action.Within R a := .of_still h.toChains ha

theorem writeChunks (h : Fills paths R) (hp : path ∈ paths) (size position count : Nat)
    (cs : List ByteArray) : Action.Within R (Copy.writeChunks path size position count cs) := by
  induction cs generalizing position count with
  | nil => exact h.still fun _ => rfl
  | cons chunk rest ih =>
    have hwrite : Action.Within R (Action.alter path (Copy.writeAt path position chunk)) := by
      refine .alter h.toChains fun m t ht => ?_
      obtain ⟨place, old, new, hr, hl, hold⟩ := Copy.refilled_of_writeAt ht
      exact h.refill m path place old new t hp hold hl hr
    refine .bind h.toChains hwrite fun _ => .bind h.toChains ?_ fun _ => ih _ _
    unfold Copy.report
    split
    · exact h.tell _
    · exact h.still fun _ => rfl

theorem copy (h : Fills paths R) (hp : path ∈ paths) :
    Action.Within R (Copy.contents env origin path) := by
  refine .bind h.toChains (.consult h.toChains _) fun _ =>
    .bind h.toChains (.consult h.toChains _) fun _ =>
    .bind h.toChains (.consult h.toChains _) fun content =>
    .bind h.toChains (h.writeChunks hp _ _ _ _) fun _ => ?_
  split
  · exact h.still fun _ => rfl
  · exact h.still fun _ => rfl

/-- Seeds are stored where a file was read before. -/
theorem store (h : Fills paths R) (hp : path ∈ paths) (b : Bundle) {m : Machine}
    {old : ByteArray} (hold : m.files.read path = .ok old) : R m ((b.store path).perform m).2 := by
  have hlog := h.record m (.logged .info (b.writeText path)) (by simp)
  rw [Bundle.perform_store]
  cases hover : b.overwrite path m.files with
  | error e => exact hlog
  | ok t =>
    obtain ⟨place, hr, hl⟩ := Bundle.refilled_of_overwrite hover
    exact h.trans hlog (h.refill _ path place old _ t hp hold hl hr)

end Machine.Fills

namespace Install

variable (env : Environment) (config : Config) (options : InstallOptions)

/-- The numbers of the partitions that are made and copied: from 1 on, as many as the configuration
has for the kind of source. -/
def partitionNumbers (source : Source) : List Nat :=
  List.range' 1
    (if source.readOnly then config.layout.cloneCountReadOnly else config.layout.cloneCount)

/-- The disk whose entries are made again: the raw drive for optical media, else the source. -/
def tableDisk (source : Source) : String :=
  if source.optical then config.paths.opticalDevice else source.device

theorem clonedIndices_eq (source : Source) :
    clonedIndices config source = partitionNumbers config source := by
  rw [partitionNumbers, List.range'_eq_map_range]
  exact List.map_congr_left fun index _ => Nat.add_comm index 1

theorem tableDevice_eq (source : Source) : tableDevice config source = tableDisk config source :=
  rfl

/-- The look at the target's table, which tells whether it has to be wiped. -/
def examine (target : String) : Action Bool := do
  mustWipe options target (← PartitionTable.check env target)

/-- The preparation of the target, up to the last of its partitions. -/
def prepare (source : Source) (target : String) (wipes : Bool) : Action Unit := do
  Action.marking "Preparing the target" (teardown env config source target wipes)
  (partitionNumbers config source).forM fun index =>
    Action.marking "Creating partitions" (createPartition env config source target index)

/-- The copies of some partitions. -/
def copies (source : Source) (target : String) (indices : List Nat) : Action Unit :=
  indices.forM fun index =>
    Action.marking "Copying partitions" (copyPartition env config source target index)

/-- The contents of the partitions. -/
def fill (source : Source) (target : String) : Action Unit := do
  copies env config source target (partitionNumbers config source)
  Action.tell (.progress 0 0)
  Action.marking "Removing the install seed" (removeSeed config target)

/-- What comes after the target is complete. -/
def conclude (source : Source) : Action (Option Nat) := do
  Action.announce completion
  let gone ← Action.marking "Waiting for media removal"
    (awaitMedia env config source options.forceReboot)
  if gone then
    let delay ← finish config.delays.install
    Action.tell .done
    return some delay
  else return none

/-- Everything that comes after the last partition is made. -/
def furnish (source : Source) (target : String) : Action (Option Nat) := do
  fill env config source target
  conclude env config options source

/-- Everything up to the last partition of the target. -/
def makeReady : Action InstallPlan := do
  let plan ← scout env config options
  let wipes ← examine env options plan.target.kernelName
  prepare env config plan.source plan.target.kernelName wipes
  return plan

theorem perform_eq_phases : Install.perform env config options = (do
    let plan ← makeReady env config options
    furnish env config options plan.source plan.target.kernelName) := by
  simp only [Install.perform, makeReady, scout, examine, prepare, furnish, fill, copies, conclude,
    write, clonedIndices_eq, bind_assoc, pure_bind]

variable {env config options} {m m' : Machine} {r : Except Failure (Option Nat)}

/-- A run is its work, and at the end the notice if that failed. -/
theorem perform_of_run (h : (Install.run env config options).perform m = (r, m')) :
    ∃ m₁, (Install.perform env config options).perform m = (r, m₁) ∧
      (m' = m₁ ∨ ∃ e, r = .error e ∧ m' = m₁.record (.told (failureNotice e))) := by
  rw [perform_run_eq] at h
  cases hp : (Install.perform env config options).perform m with
  | mk r₁ m₁ =>
    rw [hp] at h
    cases r₁ with
    | ok delay =>
      cases h
      exact ⟨m', rfl, .inl rfl⟩
    | error e =>
      cases h
      exact ⟨m₁, rfl, .inr ⟨e, rfl, rfl⟩⟩

/-! ### The files that are filled -/

variable {R : Machine → Machine → Prop} {source : Source} {target : String}

/-- The paths of the partitions that an installation writes to. -/
def filled (config : Config) (source : Source) (target : String) : List String :=
  (config.layout.seed :: partitionNumbers config source).map (partitionPath target)

theorem perform_removeSeed (target : String) (m : Machine) :
    (removeSeed config target).perform m =
      match Bundle.onPartition m.files (partitionPath target config.layout.seed) with
      | .error e => (.error e, m)
      | .ok bundle =>
        if bundle.contains Source.installSeed then
          ((bundle.remove Source.installSeed).store
            (partitionPath target config.layout.seed)).perform m
        else (.ok (), m) := by
  unfold removeSeed Bundle.load
  simp only [Action.perform_bind, Action.perform_get, Action.perform_ofExcept]
  cases Bundle.onPartition m.files (partitionPath target config.layout.seed) with
  | error e => rfl
  | ok bundle =>
    dsimp only
    split <;> rfl

theorem copyPartition_within {paths : List String} (h : Machine.Fills paths R) {index : Nat}
    (hp : partitionPath target index ∈ paths) :
    Action.Within R (copyPartition env config source target index) :=
  .bind h.toChains (h.tell _) fun _ => .bind h.toChains (h.log _) fun _ => h.copy hp

theorem copies_within {paths : List String} (h : Machine.Fills paths R) {indices : List Nat}
    (hp : ∀ index ∈ indices, partitionPath target index ∈ paths) :
    Action.Within R (copies env config source target indices) :=
  .forM h.toChains fun index hi => (copyPartition_within h (hp index hi)).marking _

theorem removeSeed_within {paths : List String} (h : Machine.Fills paths R)
    (hp : partitionPath target config.layout.seed ∈ paths) :
    Action.Within R (removeSeed config target) := by
  intro m
  rw [perform_removeSeed]
  cases hload : Bundle.onPartition m.files (partitionPath target config.layout.seed) with
  | error e => exact h.refl m
  | ok bundle =>
    obtain ⟨old, hold, -⟩ := Bundle.onPartition_eq_ok.1 hload
    dsimp only
    split
    · exact h.store hp _ hold
    · exact h.refl m

theorem fill_within (h : Machine.Fills (filled config source target) R) :
    Action.Within R (fill env config source target) :=
  .bind h.toChains (copies_within h fun index hi => List.mem_map.2 ⟨index, .tail _ hi, rfl⟩)
    fun _ => .bind h.toChains (h.tell _) fun _ =>
      (removeSeed_within h (List.mem_map.2 ⟨_, List.mem_cons_self, rfl⟩)).marking _

/-- Induction on the looks that are left. -/
theorem awaitRemoval_within {paths : List String} (h : Machine.Admits env paths R)
    (marker : String) (looks : Nat) :
    Action.Within R (awaitRemoval env config marker looks) := by
  have hlook (present : Bool) : Action.Within R (Action.note (.looked marker present)) :=
    fun m => h.record m _ (by simp)
  have hsleep : Action.Within R (Action.sleep env config.delays.mediaPoll) :=
    .bind h.toChains (fun m => h.record m _ (by simp)) fun _ m => h.elapse m
  induction looks with
  | zero => exact h.still fun _ => rfl
  | succ looks ih =>
    refine .bind h.toChains (h.still fun _ => rfl) fun m => ?_
    split
    · exact .bind h.toChains (hlook true) fun _ => .bind h.toChains hsleep fun _ => ih
    · split
      · exact .bind h.toChains (hlook false) fun _ => h.still fun _ => rfl
      · exact h.still fun _ => rfl

theorem conclude_within {paths : List String} (h : Machine.Admits env paths R) :
    Action.Within R (conclude env config options source) := by
  have hawait : Action.Within R (awaitMedia env config source options.forceReboot) := by
    unfold awaitMedia
    split
    · exact h.still fun _ => rfl
    · exact .bind h.toChains (h.log _) fun _ => awaitRemoval_within h _ _
  have hfinish : Action.Within R (finish config.delays.install) :=
    .bind h.toChains (fun m => h.record m _ (by simp)) fun _ =>
      .bind h.toChains (.bind h.toChains (h.log _) fun _ m => h.arm m _) fun _ =>
        h.still fun _ => rfl
  refine .bind h.toChains (h.tell _) fun _ => .bind h.toChains (hawait.marking _) fun gone => ?_
  split
  · exact .bind h.toChains hfinish fun _ => .bind h.toChains (h.tell _) fun _ =>
      h.still fun _ => rfl
  · exact h.still fun _ => rfl

theorem furnish_within (h : Machine.Admits env (filled config source target) R) :
    Action.Within R (furnish env config options source target) :=
  .bind h.toChains (fill_within h.toFills) fun _ => conclude_within h

end Install

end Groundwork
