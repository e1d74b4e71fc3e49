import Groundwork.Install
import Groundwork.Proofs.Install.Source

/-! What a step records. A step that records only some kinds of events is put together from steps that
do. Most steps of a workflow are work: they ask for tools, write files, log or tell. -/
namespace Groundwork

/-- Whether only events of a kind were recorded from one machine to another, and no reboot was
armed. -/
structure Machine.Records (P : Event → Prop) (m m' : Machine) : Prop where
  history : m.Adds P m'
  armed : m'.armed = m.armed

variable {α : Type} {env : Environment} {config : Config} {P Q : Event → Prop} {m m₁ m' : Machine}

namespace Machine.Records

theorem refl (P : Event → Prop) (m : Machine) : m.Records P m := ⟨.refl P m, rfl⟩

theorem trans (h : m.Records P m₁) (h' : m₁.Records P m') : m.Records P m' :=
  ⟨h.history.trans h'.history, h'.armed.trans h.armed⟩

theorem mono (h : m.Records P m') (hPQ : ∀ v, P v → Q v) : m.Records Q m' :=
  ⟨h.history.mono hPQ, h.armed⟩

theorem record {v : Event} (hv : P v) (m : Machine) : m.Records P (m.record v) :=
  ⟨.record hv m, rfl⟩

theorem chains (P : Event → Prop) : Machine.Chains (Machine.Records P) := ⟨refl P, trans⟩

/-! ### Steps -/

theorem still {a : Action α} (h : ∀ m, (a.perform m).2 = m) : Action.Within (Records P) a :=
  .of_still (chains P) h

theorem note {v : Event} (hv : P v) : Action.Within (Records P) (Action.note v) := record hv

theorem run {c : Command} (hc : ∀ t o, P (.ran ⟨c, t, o⟩)) :
    Action.Within (Records P) (Action.run env c) := by
  intro m
  rw [Action.perform_run]
  cases env.tool m c with
  | none => exact refl P m
  | some answer =>
    obtain ⟨o, t⟩ := answer
    exact ⟨⟨[.ran ⟨c, m.files, o⟩], rfl, by simpa using hc m.files o⟩, rfl⟩

theorem runChecked {c : Command} (hc : ∀ t o, P (.ran ⟨c, t, o⟩)) :
    Action.Within (Records P) (Action.runChecked env c) := by
  refine .bind (chains P) (run hc) fun o => ?_
  split
  · exact still fun _ => rfl
  · exact still fun _ => rfl

theorem alter {path : String} {f : FileTree → Except SystemError FileTree}
    (hpath : P (.wrote path)) : Action.Within (Records P) (Action.alter path f) :=
  .alter (chains P) fun _ _ _ => ⟨⟨[.wrote path], rfl, by simpa using hpath⟩, rfl⟩

end Machine.Records

/-! ### Work -/

/-- Whether an event is one of the work of a workflow. The end of a workflow, looks at a path and
sleeps are not. -/
def Event.IsWork : Event → Prop
  | .ran _ | .wrote _ | .logged .. => True
  | .told notice => notice ≠ .done
  | _ => False

/-- Whether a step only works. -/
abbrev Action.Works (a : Action α) : Prop := Action.Within (Machine.Records Event.IsWork) a

namespace Action.Works

open Machine.Records

theorem bind {β : Type} {a : Action α} {f : α → Action β} (ha : Works a) (hf : ∀ x, Works (f x)) :
    Works (a >>= f) :=
  Action.Within.bind (chains _) ha hf

theorem still {a : Action α} (h : ∀ m, (a.perform m).2 = m) : Works a :=
  Action.Within.of_still (chains _) h

theorem logged (level : Level) (text : String) : Works (note (.logged level text)) :=
  Machine.Records.note trivial

theorem announce (text : String) : Works (announce text) := Machine.Records.note Notice.noConfusion

theorem run (c : Command) : Works (run env c) := Machine.Records.run fun _ _ => trivial

theorem runChecked (c : Command) : Works (runChecked env c) :=
  Machine.Records.runChecked fun _ _ => trivial

theorem ofExcept (r : Except Failure α) : Works (ofExcept r) := still fun _ => rfl

theorem forM {l : List α} {f : α → Action PUnit} (hf : ∀ x, Works (f x)) : Works (l.forM f) :=
  Action.Within.forM (chains _) fun x _ => hf x

end Action.Works

open Action.Works

theorem works_systemDisk (paths : Paths) : Action.Works (systemDisk env paths) :=
  (still fun _ => rfl).bind fun _ => .ofExcept _

theorem works_detect : Action.Works (Source.detect env config) :=
  Source.within_detect (.refl _) fun m _ => .record trivial m

theorem works_load (partition : String) : Action.Works (Bundle.load partition) :=
  (still fun _ => rfl).bind fun _ => .ofExcept _

theorem records_store {partition : String} (hlogged : ∀ text, P (.logged .info text))
    (hwrote : P (.wrote partition)) (b : Bundle) :
    Action.Within (Machine.Records P) (b.store partition) := by
  refine .bind (Machine.Records.chains P) (Machine.Records.note (hlogged _)) fun _ =>
    .bind (Machine.Records.chains P) (Machine.Records.alter hwrote) fun _ => ?_
  split
  · exact Machine.Records.still fun _ => rfl
  · exact Machine.Records.still fun _ => rfl

theorem works_disks : Action.Works (Disk.all env) := by
  have hclass (c : DiskClass) : Action.Works (Disk.ofClass env c) :=
    (runChecked _).bind fun _ => .ofExcept _
  exact Action.Within.foldlM (Machine.Records.chains _)
    (fun _ c => (hclass c).bind fun _ => still fun _ => rfl) _ _

namespace PartitionTable

theorem works_check (disk : String) : Action.Works (check env disk) :=
  (run _).bind fun _ => .ofExcept _

theorem works_zap (disk : String) : Action.Works (zap env disk) :=
  (logged _ _).bind fun _ => (run _).bind fun _ => still fun _ => rfl

theorem works_info (disk : String) (index : Nat) : Action.Works (info env disk index) := by
  refine (runChecked _).bind fun _ => ?_
  split
  · exact still fun _ => rfl
  · exact .ofExcept _

theorem works_create (disk : String) (p : Partition) : Action.Works (create env disk p) := by
  unfold create
  split
  · exact still fun _ => rfl
  · exact (logged _ _).bind fun _ => (runChecked _).bind fun _ => still fun _ => rfl

theorem works_delete (disk : String) (index : Nat) : Action.Works (delete env disk index) :=
  (logged _ _).bind fun _ => (runChecked _).bind fun _ => still fun _ => rfl

end PartitionTable

theorem Copy.records_contents {source target : String} (hwrote : P (.wrote target))
    (htold : ∀ position size, P (.told (.progress position size))) :
    Action.Within (Machine.Records P) (contents env source target) := by
  have hchains := Machine.Records.chains P
  have hchunks (size : Nat) (cs : List ByteArray) (position count : Nat) :
      Action.Within (Machine.Records P) (writeChunks target size position count cs) := by
    induction cs generalizing position count with
    | nil => exact Machine.Records.still fun _ => rfl
    | cons chunk rest ih =>
      refine .bind hchains (Machine.Records.alter hwrote) fun _ => .bind hchains ?_ fun _ => ih _ _
      unfold report
      split
      · exact Machine.Records.note (htold _ size)
      · exact Machine.Records.still fun _ => rfl
  refine .bind hchains (.consult hchains _) fun _ => .bind hchains (.consult hchains _) fun _ =>
    .bind hchains (.consult hchains _) fun content => .bind hchains (hchunks _ _ _ _) fun _ => ?_
  split
  · exact Machine.Records.still fun _ => rfl
  · exact Machine.Records.still fun _ => rfl

end Groundwork
