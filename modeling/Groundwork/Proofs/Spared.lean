import Groundwork.Proofs.Course

/-! Steps that spare the machine: they write no file, flush no disk and arm no reboot, and the only
tools that they ask for run commands of a kind. -/
namespace Groundwork

variable {α : Type} {env : Environment} {C D : Command → Prop} {m m₁ m' : Machine}

/-- Whether an event spares the machine, if the commands of a kind do. -/
def Event.Spares (C : Command → Prop) : Event → Prop
  | .ran call => C call.command
  | .told _ | .logged .. | .printed _ | .complained _ => True
  | _ => False

/-- The files are as before if no command of the kind changes any. -/
structure Machine.Spared (env : Environment) (C : Command → Prop) (m m' : Machine) : Prop where
  history : m.Adds (Event.Spares C) m'
  armed : m'.armed = m.armed
  files : (∀ m c o t, C c → env.tool m c = some (o, t) → t = m.files) → m'.files = m.files

namespace Machine.Spared

theorem refl (env : Environment) (C : Command → Prop) (m : Machine) : Spared env C m m :=
  ⟨.refl _ m, rfl, fun _ => rfl⟩

theorem trans (h : Spared env C m m₁) (h' : Spared env C m₁ m') : Spared env C m m' where
  history := h.history.trans h'.history
  armed := h'.armed.trans h.armed
  files hC := (h'.files hC).trans (h.files hC)

theorem chains (env : Environment) (C : Command → Prop) : Machine.Chains (Spared env C) :=
  ⟨refl env C, trans⟩

theorem mono (h : Spared env C m m') (hCD : ∀ c, C c → D c) : Spared env D m m' where
  history := h.history.mono fun v hv => by
    cases v with
    | ran call => exact hCD call.command hv
    | _ => exact hv
  armed := h.armed
  files hD := h.files fun m c o t hc => hD m c o t (hCD c hc)

theorem record {v : Event} (hv : v.Spares C) (m : Machine) : Spared env C m (m.record v) :=
  ⟨.record hv m, rfl, fun _ => rfl⟩

/-- A request for a tool that is not installed changes nothing. -/
theorem after {a : Attempt} (hC : ∀ call ∈ a.call? env, C call.command) :
    Spared env C a.machine (a.after env) where
  history := Attempt.adds_after hC
  armed := a.armed_after
  files hkept := Attempt.files_after_of_kept fun o t htool =>
    hkept _ _ o t (hC ⟨a.command, a.machine.files, o⟩ (by simp [Attempt.call?, htool])) htool

/-! ### Steps -/

theorem still {a : Action α} (h : ∀ m, (a.perform m).2 = m) : Action.Within (Spared env C) a :=
  .of_still (chains env C) h

theorem logged (level : Level) (text : String) :
    Action.Within (Spared env C) (Action.note (.logged level text)) := record trivial

theorem runChecked {c : Command} (hc : C c) :
    Action.Within (Spared env C) (Action.runChecked env c) := by
  intro m
  rw [Action.perform_runChecked]
  refine after (a := ⟨m, c⟩) fun call hcall => ?_
  obtain ⟨r, -, rfl⟩ := Option.map_eq_some_iff.1 hcall
  exact hc

/-- Quiet steps between requests for some commands. -/
theorem of_course {as : List Attempt} (h : Course env Machine.Reports m as m')
    (hC : ∀ a ∈ as, ∀ call ∈ a.call? env, C call.command) : Spared env C m m' := by
  induction h with
  | refl => exact refl env C _
  | @quiet m m₁ m' as hq _ ih =>
    have hquiet : Spared env C m m₁ := by
      cases hq with
      | told n => exact record (v := .told n) trivial m
      | logged level text => exact record (v := .logged level text) trivial m
    exact hquiet.trans (ih hC)
  | @ask m m' as c _ ih =>
    have hafter : Spared env C m (Attempt.after env ⟨m, c⟩) := after (hC _ List.mem_cons_self)
    exact hafter.trans (ih fun a ha => hC a (.tail _ ha))

/-- A step that asks for commands in turn spares the machine but for them. -/
theorem of_asks {a : Action α} {cs : List Command} (h : Asks env a cs) (m : Machine) :
    Spared env (· ∈ cs) m (a.perform m).2 ∧
      ∃ ds, ds <+: cs ∧ (a.perform m).2.commands = m.commands ++ ds := by
  obtain ⟨as, hcourse, hran, -, -⟩ := h m
  refine ⟨of_course hcourse ?_, ran env as, hran, ?_⟩
  · intro a ha call hcall
    exact hran.subset (List.mem_map.2 ⟨call, List.mem_filterMap.2 ⟨a, ha, hcall⟩, rfl⟩)
  · rw [Machine.commands, hcourse.calls fun _ _ hq => hq.calls, List.map_append, ran,
      Machine.commands]

end Machine.Spared

end Groundwork
