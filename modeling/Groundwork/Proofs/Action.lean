import Groundwork.Machine.Action

/-! What a step comes to on a machine: one equation for each step, and how a failure or a success of
two steps in a row comes apart. -/
namespace Groundwork

variable {α β : Type} {m m' : Machine} {e : Failure}

namespace Machine

/-- The commands that tools have answered, with the files as they were. -/
def calls (m : Machine) : List Call := m.history.filterMap fun
  | .ran call => some call
  | _ => none

/-- The commands that tools have answered. -/
def commands (m : Machine) : List Command := m.calls.map (·.command)

/-- What the operator was told about an installation. -/
def notices (m : Machine) : List Notice := m.history.filterMap fun
  | .told notice => some notice
  | _ => none

/-- A machine after a tool has answered. -/
def answered (m : Machine) (c : Command) (o : Output) (t : FileTree) : Machine :=
  { m with files := t }.record (.ran ⟨c, m.files, o⟩)

/-- A machine after a file was changed. -/
def wrote (m : Machine) (path : String) (t : FileTree) : Machine :=
  { m with files := t }.record (.wrote path)

@[simp] theorem files_record (m : Machine) (v : Event) : (m.record v).files = m.files := rfl

@[simp] theorem armed_record (m : Machine) (v : Event) : (m.record v).armed = m.armed := rfl

@[simp] theorem history_record (m : Machine) (v : Event) :
    (m.record v).history = m.history ++ [v] := rfl

@[simp] theorem files_answered (m : Machine) (c : Command) (o : Output) (t : FileTree) :
    (m.answered c o t).files = t := rfl

@[simp] theorem armed_answered (m : Machine) (c : Command) (o : Output) (t : FileTree) :
    (m.answered c o t).armed = m.armed := rfl

theorem calls_answered (m : Machine) (c : Command) (o : Output) (t : FileTree) :
    (m.answered c o t).calls = m.calls ++ [⟨c, m.files, o⟩] := by
  simp [calls, answered, record]

@[simp] theorem files_wrote (m : Machine) (path : String) (t : FileTree) :
    (m.wrote path t).files = t := rfl

@[simp] theorem armed_wrote (m : Machine) (path : String) (t : FileTree) :
    (m.wrote path t).armed = m.armed := rfl

theorem calls_wrote (m : Machine) (path : String) (t : FileTree) :
    (m.wrote path t).calls = m.calls := by
  simp [calls, wrote, record]

theorem notices_told (m : Machine) (n : Notice) :
    (m.record (.told n)).notices = m.notices ++ [n] := by
  simp [notices, record]

end Machine

namespace Action

@[simp] theorem ok_mapError {ε ε' : Type} (f : ε → ε') (x : α) :
    (Except.ok x : Except ε α).mapError f = .ok x := rfl

@[simp] theorem error_mapError {ε ε' : Type} (f : ε → ε') (e : ε) :
    (Except.error e : Except ε α).mapError f = .error (f e) := rfl

@[simp] theorem perform_pure (x : α) (m : Machine) :
    (pure x : Action α).perform m = (.ok x, m) := rfl

@[simp] theorem perform_throw (e : Failure) (m : Machine) :
    (throw e : Action α).perform m = (.error e, m) := rfl

@[simp] theorem perform_get (m : Machine) : (get : Action Machine).perform m = (.ok m, m) := rfl

@[simp] theorem perform_note (v : Event) (m : Machine) :
    (note v).perform m = (.ok (), m.record v) := rfl

@[simp] theorem perform_logInfo (text : String) (m : Machine) :
    (logInfo text).perform m = (.ok (), m.record (.logged .info text)) := rfl

@[simp] theorem perform_logWarning (text : String) (m : Machine) :
    (logWarning text).perform m = (.ok (), m.record (.logged .warning text)) := rfl

@[simp] theorem perform_tell (n : Notice) (m : Machine) :
    (tell n).perform m = (.ok (), m.record (.told n)) := rfl

@[simp] theorem perform_announce (text : String) (m : Machine) :
    (announce text).perform m = (.ok (), m.record (.told (.message text))) := rfl

@[simp] theorem perform_ofExcept (r : Except Failure α) (m : Machine) :
    (ofExcept r).perform m = (r, m) := rfl

@[simp] theorem perform_attempt (a : Action α) (m : Machine) :
    (attempt a).perform m = (.ok (a.perform m).1, (a.perform m).2) := rfl

@[simp] theorem perform_marking (step : String) (a : Action α) (m : Machine) :
    (marking step a).perform m = ((a.perform m).1.mapError (Failure.mark step), (a.perform m).2) :=
  rfl

theorem perform_bind (a : Action α) (f : α → Action β) (m : Machine) :
    (a >>= f).perform m = match a.perform m with
      | (.ok x, m') => (f x).perform m'
      | (.error e, m') => (.error e, m') := by
  simp only [perform, ExceptT.run_bind, StateT.run_bind]
  cases StateT.run (ExceptT.run a) m with
  | mk r m' => cases r <;> rfl

theorem perform_bind_of_ok {a : Action α} {x : α} (f : α → Action β)
    (h : a.perform m = (.ok x, m')) : (a >>= f).perform m = (f x).perform m' := by
  rw [perform_bind, h]

theorem perform_bind_of_error {a : Action α} (f : α → Action β)
    (h : a.perform m = (.error e, m')) : (a >>= f).perform m = (.error e, m') := by
  rw [perform_bind, h]

/-- A step of which only the result is changed. -/
theorem perform_bind_pure (a : Action α) (f : α → β) (m : Machine) :
    (a >>= fun x => pure (f x)).perform m = ((a.perform m).1.map f, (a.perform m).2) := by
  rw [perform_bind]
  rcases a.perform m with ⟨_ | x, m'⟩
  · rfl
  · rfl

theorem perform_marking_of_ok {a : Action α} {x : α} (step : String)
    (h : a.perform m = (.ok x, m')) : (marking step a).perform m = (.ok x, m') := by
  rw [perform_marking, h]
  rfl

theorem perform_marking_of_error {a : Action α} (step : String)
    (h : a.perform m = (.error e, m')) :
    (marking step a).perform m = (.error (e.mark step), m') := by
  rw [perform_marking, h]
  rfl

theorem perform_marking_eq_ok {a : Action α} {x : α} {step : String} :
    (marking step a).perform m = (.ok x, m') ↔ a.perform m = (.ok x, m') := by
  rw [perform_marking]
  rcases a.perform m with ⟨_ | y, m₁⟩
  · simp
  · simp

theorem perform_bind_eq_ok {a : Action α} {f : α → Action β} {y : β} :
    (a >>= f).perform m = (.ok y, m') ↔
      ∃ x m₁, a.perform m = (.ok x, m₁) ∧ (f x).perform m₁ = (.ok y, m') := by
  rw [perform_bind]
  rcases a.perform m with ⟨_ | x, m₁⟩
  · simp
  · constructor
    · intro h
      exact ⟨x, m₁, rfl, h⟩
    · rintro ⟨_, _, h, hf⟩
      cases h
      exact hf

/-- The first of two steps fails, or the second goes on where the first one arrived. -/
theorem perform_bind_cases {a : Action α} {f : α → Action β} {r : Except Failure β}
    (h : (a >>= f).perform m = (r, m')) :
    (∃ e, a.perform m = (.error e, m') ∧ r = .error e) ∨
    ∃ x m₁, a.perform m = (.ok x, m₁) ∧ (f x).perform m₁ = (r, m') := by
  rw [perform_bind] at h
  cases hfirst : a.perform m with
  | mk r₁ m₁ =>
    rw [hfirst] at h
    cases r₁ with
    | error e =>
      cases h
      exact .inl ⟨e, rfl, rfl⟩
    | ok x => exact .inr ⟨x, m₁, rfl, h⟩

@[simp] theorem perform_consult (f : FileTree → Except SystemError α) (m : Machine) :
    (consult f).perform m = ((f m.files).mapError .system, m) := rfl

theorem perform_consult_eq_ok {f : FileTree → Except SystemError α} {x : α} :
    (consult f).perform m = (.ok x, m') ↔ f m.files = .ok x ∧ m' = m := by
  rw [perform_consult]
  cases f m.files with
  | error e => simp
  | ok y => simp [eq_comm]

theorem perform_alter (path : String) (f : FileTree → Except SystemError FileTree) (m : Machine) :
    (alter path f).perform m = match f m.files with
      | .ok t => (.ok (), m.wrote path t)
      | .error e => (.error (.system e), m) := by
  unfold alter
  rw [perform_bind, perform_consult]
  cases f m.files <;> rfl

theorem perform_alter_eq_ok {path : String} {f : FileTree → Except SystemError FileTree} {x : Unit} :
    (alter path f).perform m = (.ok x, m') ↔ ∃ t, f m.files = .ok t ∧ m' = m.wrote path t := by
  rw [perform_alter]
  cases f m.files with
  | error e => simp
  | ok t => simp [eq_comm]

theorem perform_makePath (path : String) (m : Machine) :
    (makePath path).perform m = ((m.files.makePath path).2.mapError .system,
      { m with files := (m.files.makePath path).1 }) := rfl

theorem perform_run (env : Environment) (c : Command) (m : Machine) :
    (run env c).perform m = match env.tool m c with
      | some (o, t) => (.ok o, m.answered c o t)
      | none => (.error (.toolNotFound c.program), m) := by
  unfold run
  rw [perform_bind_of_ok _ (perform_get m)]
  cases env.tool m c <;> rfl

theorem ok_bind (x : α) (f : α → Except Failure β) : (Except.ok x >>= f) = f x := rfl

theorem eq_ok_of_toOption {ε : Type} {r : Except ε α} {x : α} (h : r.toOption = some x) :
    r = .ok x := by
  cases r with
  | error e => cases h
  | ok y => exact congrArg Except.ok (Option.some.inj h)

/-- The failure of a result. -/
def failure? (r : Except Failure α) : Option Failure :=
  match r with
  | .ok _ => none
  | .error e => some e

theorem eq_error_of_failure? {r : Except Failure α} (h : failure? r = some e) : r = .error e := by
  cases r with
  | ok x => cases h
  | error e' => exact congrArg Except.error (Option.some.inj h)

/-- A checked condition fails for none of the items if and only if all checks pass. -/
theorem forM_eq_ok {f : α → Except Failure PUnit} {l : List α} :
    l.forM f = .ok ⟨⟩ ↔ ∀ x ∈ l, f x = .ok ⟨⟩ := by
  induction l with
  | nil => simp [pure, Except.pure]
  | cons x l ih =>
    rw [List.forM, List.forall_mem_cons, ← ih]
    cases f x <;> simp [bind, Except.bind]

/-- A list of results that are all good. -/
theorem mapM_eq_ok {ε : Type} {f : α → Except ε β} {g : α → β} {l : List α}
    (h : ∀ x ∈ l, f x = .ok (g x)) : l.mapM f = .ok (l.map g) := by
  induction l with
  | nil => rfl
  | cons x l ih =>
    rw [List.mapM_cons, ih fun y hy => h y (.tail _ hy), h x List.mem_cons_self]
    rfl

end Action

/-! ### What is recorded -/

/-- Whether only events of a kind were recorded from one machine to another. -/
def Machine.Adds (P : Event → Prop) (m m' : Machine) : Prop :=
  ∃ events, m'.history = m.history ++ events ∧ ∀ v ∈ events, P v

namespace Machine.Adds

variable {P Q : Event → Prop} {m₁ : Machine}

theorem refl (P : Event → Prop) (m : Machine) : m.Adds P m := ⟨[], by simp, by simp⟩

theorem trans (h : m.Adds P m₁) (h' : m₁.Adds P m') : m.Adds P m' := by
  obtain ⟨front, hfront, hf⟩ := h
  obtain ⟨back, hback, hb⟩ := h'
  refine ⟨front ++ back, by rw [hback, hfront, List.append_assoc], ?_⟩
  intro v hv
  rcases List.mem_append.1 hv with hv | hv
  · exact hf v hv
  · exact hb v hv

theorem mono (h : m.Adds P m') (hPQ : ∀ v, P v → Q v) : m.Adds Q m' := by
  obtain ⟨events, hevents, hall⟩ := h
  exact ⟨events, hevents, fun v hv => hPQ v (hall v hv)⟩

theorem record {v : Event} (hv : P v) (m : Machine) : m.Adds P (m.record v) :=
  ⟨[v], rfl, by simpa using hv⟩

theorem forall_mem {events : List Event} (h : m.Adds P m')
    (hevents : m'.history = m.history ++ events) : ∀ v ∈ events, P v := by
  obtain ⟨events', hevents', hall⟩ := h
  rwa [← List.append_cancel_left (hevents.symm.trans hevents')] at hall

/-- What is recorded in each of two stages is recorded in both. -/
theorem of_trans {R : Event → Prop} (h : m.Adds P m') (hfront : m.Adds Q m₁) (hback : m₁.Adds R m') :
    m.Adds P m₁ ∧ m₁.Adds P m' := by
  obtain ⟨front, hfront, -⟩ := hfront
  obtain ⟨back, hback, -⟩ := hback
  have hall := h.forall_mem (by rw [hback, hfront, List.append_assoc])
  exact ⟨⟨front, hfront, fun v hv => hall v (List.mem_append_left _ hv)⟩,
    ⟨back, hback, fun v hv => hall v (List.mem_append_right _ hv)⟩⟩

end Machine.Adds

/-! ### Steps that keep to a relation -/

/-- A relation that a chain of steps keeps to if each of them does. -/
structure Machine.Chains (R : Machine → Machine → Prop) : Prop where
  refl : ∀ m, R m m
  trans : ∀ {m m₁ m'}, R m m₁ → R m₁ m' → R m m'

/-- Whether a step leads from every machine to one in the relation, also if it fails. -/
def Action.Within (R : Machine → Machine → Prop) (a : Action α) : Prop := ∀ m, R m (a.perform m).2

namespace Action.Within

variable {R : Machine → Machine → Prop} {a : Action α} {f : α → Action β}

theorem of_eq {r : Except Failure α} (h : Within R a) (hp : a.perform m = (r, m')) : R m m' := by
  have hm := h m
  rwa [hp] at hm

theorem of_still (hR : Machine.Chains R) (h : ∀ m, (a.perform m).2 = m) : Within R a := by
  intro m
  rw [h m]
  exact hR.refl m

theorem bind (hR : Machine.Chains R) (ha : Within R a) (hf : ∀ x, Within R (f x)) :
    Within R (a >>= f) := by
  intro m
  have hm := ha m
  rw [perform_bind]
  cases hp : a.perform m with
  | mk r m₁ =>
    rw [hp] at hm
    cases r with
    | error e => exact hm
    | ok x => exact hR.trans hm (hf x m₁)

theorem forM (hR : Machine.Chains R) {l : List α} {f : α → Action PUnit}
    (hf : ∀ x ∈ l, Within R (f x)) : Within R (l.forM f) := by
  induction l with
  | nil => exact of_still hR fun _ => rfl
  | cons x l ih =>
    exact bind hR (hf x List.mem_cons_self) fun _ => ih fun y hy => hf y (.tail _ hy)

/-- Induction on the list. -/
theorem foldlM {γ : Type} (hR : Machine.Chains R) {f : β → γ → Action β}
    (hf : ∀ x y, Within R (f x y)) (l : List γ) (x : β) : Within R (l.foldlM f x) := by
  induction l generalizing x with
  | nil => exact of_still hR fun _ => rfl
  | cons y l ih => exact bind hR (hf x y) ih

/-- Induction on the list, from its end. -/
theorem mapM {f : α → Action β} (hR : Machine.Chains R) (hf : ∀ x, Within R (f x))
    (l : List α) : Within R (l.mapM f) := by
  induction l with
  | nil => exact of_still hR fun _ => rfl
  | cons x l ih =>
    rw [List.mapM_cons]
    exact bind hR (hf x) fun _ => bind hR ih fun _ => of_still hR fun _ => rfl

/-- Induction on the list, with any accepted items before it. -/
theorem filterM {p : α → Action Bool} (hR : Machine.Chains R) (hp : ∀ x, Within R (p x))
    (l : List α) : Within R (l.filterM p) := by
  have haux (accepted : List α) : Within R (l.filterAuxM p accepted) := by
    induction l generalizing accepted with
    | nil => exact of_still hR fun _ => rfl
    | cons x l ih =>
      rw [List.filterAuxM]
      exact bind hR (hp x) fun _ => ih _
  rw [List.filterM]
  exact bind hR (haux []) fun _ => of_still hR fun _ => rfl

theorem marking (step : String) (ha : Within R a) : Within R (marking step a) := ha

theorem attempt (ha : Within R a) : Within R (attempt a) := ha

theorem consult (hR : Machine.Chains R) (f : FileTree → Except SystemError α) :
    Within R (consult f) := of_still hR fun m => congrArg Prod.snd (perform_consult f m)

theorem ofExcept (hR : Machine.Chains R) (r : Except Failure α) : Within R (ofExcept r) :=
  of_still hR fun _ => rfl

theorem alter (hR : Machine.Chains R) {path : String}
    {f : FileTree → Except SystemError FileTree}
    (h : ∀ m t, f m.files = .ok t → R m (m.wrote path t)) : Within R (alter path f) := by
  intro m
  rw [perform_alter]
  cases hf : f m.files with
  | error e => exact hR.refl m
  | ok t => exact h m t hf

end Action.Within

/-! ### Steps that succeed -/

/-- Whether a step succeeds with a result on every machine that has some files, and what files it
leaves. -/
def Action.Yields (t : FileTree) (a : Action α) (x : α) (t' : FileTree) : Prop :=
  ∀ m, m.files = t → ∃ m', a.perform m = (.ok x, m') ∧ m'.files = t'

namespace Action.Yields

variable {t t' t'' : FileTree} {a : Action α} {f : α → Action β} {x : α} {y : β}
  {env : Environment} {c : Command} {o : Output}

theorem bind (ha : Yields t a x t') (hf : Yields t' (f x) y t'') : Yields t (a >>= f) y t'' := by
  intro m hm
  obtain ⟨m₁, ha, hm₁⟩ := ha m hm
  obtain ⟨m₂, hf, hm₂⟩ := hf m₁ hm₁
  exact ⟨m₂, (perform_bind_of_ok f ha).trans hf, hm₂⟩

theorem pure (t : FileTree) (x : α) : Yields t (pure x) x t := fun m hm => ⟨m, rfl, hm⟩

theorem get_bind {f : Machine → Action β} (hf : ∀ m, m.files = t → Yields t (f m) y t') :
    Yields t (get >>= f) y t' := fun m hm => hf m hm m hm

theorem note (t : FileTree) (v : Event) : Yields t (note v) () t :=
  fun m hm => ⟨m.record v, rfl, hm⟩

theorem ofExcept (t : FileTree) {r : Except Failure α} (h : r = .ok x) :
    Yields t (ofExcept r) x t := fun m hm => ⟨m, by rw [perform_ofExcept, h], hm⟩

theorem consult {f : FileTree → Except SystemError α} (h : f t = .ok x) :
    Yields t (consult f) x t := by
  intro m hm
  rw [← hm] at h
  exact ⟨m, perform_consult_eq_ok.2 ⟨h, rfl⟩, hm⟩

theorem alter {path : String} {f : FileTree → Except SystemError FileTree} (h : f t = .ok t') :
    Yields t (alter path f) () t' := by
  intro m hm
  rw [← hm] at h
  have halter : (Action.alter path f).perform m = (.ok (), m.wrote path t') :=
    perform_alter_eq_ok.2 ⟨t', h, rfl⟩
  exact ⟨_, halter, rfl⟩

theorem marking {step : String} (h : Yields t a x t') : Yields t (marking step a) x t' := by
  intro m hm
  obtain ⟨m', ha, hm'⟩ := h m hm
  exact ⟨m', perform_marking_of_ok step ha, hm'⟩

theorem attempt (h : Yields t a x t') : Yields t (attempt a) (.ok x) t' := by
  intro m hm
  obtain ⟨m', ha, hm'⟩ := h m hm
  exact ⟨m', by rw [perform_attempt, ha], hm'⟩

/-- A tool that answers, and whatever it does to the files. -/
theorem run (h : ∀ m, m.files = t → env.tool m c = some (o, t')) : Yields t (run env c) o t' := by
  intro m hm
  exact ⟨m.answered c o t', by rw [perform_run, h m hm], rfl⟩

theorem runChecked (h : ∀ m, m.files = t → env.tool m c = some (o, t')) (ho : o.success = true) :
    Yields t (runChecked env c) o t' := by
  refine (run h).bind ?_
  rw [ho]
  exact pure t' o

/-- Induction on the list: each step finds the files as the one before it did. -/
theorem forM {l : List α} {f : α → Action PUnit} (h : ∀ x ∈ l, Yields t (f x) ⟨⟩ t) :
    Yields t (l.forM f) ⟨⟩ t := by
  induction l with
  | nil => exact pure t PUnit.unit
  | cons x l ih => exact (h x List.mem_cons_self).bind (ih fun y hy => h y (.tail _ hy))

end Action.Yields

/-- Whether a step succeeds on every machine that has some files, with a result of some kind, and what
files it leaves. The results may differ from machine to machine. -/
def Action.Provides (t : FileTree) (a : Action α) (P : α → Prop) (t' : FileTree) : Prop :=
  ∀ m, m.files = t → ∃ x m', a.perform m = (.ok x, m') ∧ P x ∧ m'.files = t'

namespace Action.Provides

variable {t t' t'' : FileTree} {a : Action α} {f : α → Action β} {P : α → Prop} {y : β}
  {env : Environment} {c : Command} {Q : Output → Prop}

theorem of_yields {x : α} (h : Yields t a x t') (hx : P x) : Provides t a P t' := by
  intro m hm
  obtain ⟨m', ha, hm'⟩ := h m hm
  exact ⟨x, m', ha, hx, hm'⟩

theorem bind {R : β → Prop} (ha : Provides t a P t') (hf : ∀ x, P x → Provides t' (f x) R t'') :
    Provides t (a >>= f) R t'' := by
  intro m hm
  obtain ⟨x, m₁, ha, hx, hm₁⟩ := ha m hm
  obtain ⟨y, m₂, hf, hy, hm₂⟩ := hf x hx m₁ hm₁
  exact ⟨y, m₂, (perform_bind_of_ok _ ha).trans hf, hy, hm₂⟩

/-- What comes after a step can be the same for all of its results. -/
theorem bind_yields (ha : Provides t a P t') (hf : ∀ x, P x → Yields t' (f x) y t'') :
    Yields t (a >>= f) y t'' := by
  intro m hm
  obtain ⟨x, m₁, ha, hx, hm₁⟩ := ha m hm
  obtain ⟨m₂, hf, hm₂⟩ := hf x hx m₁ hm₁
  exact ⟨m₂, (perform_bind_of_ok f ha).trans hf, hm₂⟩

theorem run (h : ∀ m, m.files = t → ∃ o, env.tool m c = some (o, t') ∧ Q o) :
    Provides t (run env c) Q t' := by
  intro m hm
  obtain ⟨o, ho, hQ⟩ := h m hm
  exact ⟨o, m.answered c o t', by rw [perform_run, ho], hQ, rfl⟩

theorem runChecked
    (h : ∀ m, m.files = t → ∃ o, env.tool m c = some (o, t') ∧ o.success = true ∧ Q o) :
    Provides t (runChecked env c) Q t' := by
  intro m hm
  obtain ⟨o, ho, hok, hQ⟩ := h m hm
  have hrun : (Action.run env c).perform m = (.ok o, m.answered c o t') := by rw [perform_run, ho]
  refine ⟨o, m.answered c o t', ?_, hQ, rfl⟩
  rw [Action.runChecked, perform_bind_of_ok _ hrun, hok]
  rfl

theorem attempt (h : Provides t a P t') :
    Provides t (attempt a) (fun r => ∃ x, r = .ok x ∧ P x) t' := by
  intro m hm
  obtain ⟨x, m', ha, hx, hm'⟩ := h m hm
  exact ⟨.ok x, m', by rw [perform_attempt, ha], ⟨x, rfl, hx⟩, hm'⟩

end Action.Provides

namespace Failure

@[simp] theorem isUntouched_mark (step : String) (e : Failure) :
    (e.mark step).isUntouched = false := by
  cases e <;> rfl

end Failure

end Groundwork
