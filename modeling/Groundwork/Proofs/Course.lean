import Groundwork.Proofs.Failure

/-! Courses of a machine: the requests for tools that a workflow makes, one after the other, and quiet
steps before and between them. A request for a tool that is not installed leaves no event, so the
requests are kept apart from the history. -/
namespace Groundwork

theorem Output.success_iff {o : Output} : o.success = true ↔ o.status = some 0 := beq_iff_eq

/-- A request for a tool, and the machine on which it is made. -/
structure Attempt where
  machine : Machine
  command : Command

namespace Attempt

variable (env : Environment)

def after (a : Attempt) : Machine :=
  match env.tool a.machine a.command with
  | some (o, t) => a.machine.answered a.command o t
  | none => a.machine

/-- The event of the request; none if the tool is not installed. -/
def call? (a : Attempt) : Option Call :=
  (env.tool a.machine a.command).map fun (o, _) => ⟨a.command, a.machine.files, o⟩

def succeeds (a : Attempt) : Bool :=
  (env.tool a.machine a.command).any fun (o, _) => o.status == some 0

def answer (a : Attempt) : Except Failure Output :=
  match env.tool a.machine a.command with
  | some (o, _) => .ok o
  | none => .error (.toolNotFound a.command.program)

/-- The result of a request that has to succeed. -/
def checked (a : Attempt) : Except Failure Output :=
  (a.answer env).bind fun o =>
    if o.status == some 0 then .ok o else .error (Action.commandFailure a.command o)

end Attempt

/-- Quiet steps, and requests for tools in the order of the list. -/
inductive Course (env : Environment) (quiet : Machine → Machine → Prop) :
    Machine → List Attempt → Machine → Prop
  | refl (m : Machine) : Course env quiet m [] m
  | quiet {m m₁ m' : Machine} {as : List Attempt} (h : quiet m m₁)
    (rest : Course env quiet m₁ as m') : Course env quiet m as m'
  | ask {m m' : Machine} {as : List Attempt} (c : Command)
    (rest : Course env quiet (Attempt.after env ⟨m, c⟩) as m') :
    Course env quiet m (⟨m, c⟩ :: as) m'

/-- Whether attempts keep to a plan of commands: one after the other, until one does not pass. The
last argument tells whether the plan was finished. -/
inductive Follows (passes : Attempt → Bool) : List Command → List Attempt → Bool → Prop
  | finished : Follows passes [] [] true
  | stopped {a : Attempt} {cs : List Command} (h : passes a = false) :
    Follows passes (a.command :: cs) [a] false
  | passed {a : Attempt} {cs : List Command} {as : List Attempt} {done : Bool}
    (h : passes a = true) (rest : Follows passes cs as done) :
    Follows passes (a.command :: cs) (a :: as) done

variable {env : Environment} {quiet : Machine → Machine → Prop} {m m₁ m' : Machine}
  {as bs : List Attempt} {cs : List Command}

namespace Attempt

theorem calls_after (a : Attempt) :
    (a.after env).calls = a.machine.calls ++ (a.call? env).toList := by
  unfold after call?
  cases env.tool a.machine a.command with
  | none => simp
  | some r => simp [Machine.calls_answered]

@[simp] theorem armed_after (a : Attempt) : (a.after env).armed = a.machine.armed := by
  unfold after
  cases env.tool a.machine a.command <;> rfl

theorem files_after (a : Attempt) : (a.after env).files = a.machine.files ∨
    ∃ o, env.tool a.machine a.command = some (o, (a.after env).files) := by
  unfold after
  cases env.tool a.machine a.command with
  | none => exact .inl rfl
  | some r => exact .inr ⟨r.1, rfl⟩

theorem files_after_of_kept {a : Attempt}
    (h : ∀ o t, env.tool a.machine a.command = some (o, t) → t = a.machine.files) :
    (a.after env).files = a.machine.files := by
  rcases @files_after env a with hsame | ⟨o, ho⟩
  · exact hsame
  · exact h o _ ho

theorem adds_after {P : Event → Prop} {a : Attempt} (h : ∀ call ∈ a.call? env, P (.ran call)) :
    a.machine.Adds P (a.after env) := by
  unfold call? at h
  unfold after
  cases htool : env.tool a.machine a.command with
  | none => exact .refl P _
  | some r =>
    have hcall : P (.ran ⟨a.command, a.machine.files, r.1⟩) := h _ (by simp [htool])
    exact ⟨[.ran ⟨a.command, a.machine.files, r.1⟩], rfl, List.forall_mem_singleton.2 hcall⟩

theorem mechanical_checked (env : Environment) (a : Attempt) :
    FailsOnly Failure.Mechanical (a.checked env) := by
  unfold checked answer
  cases env.tool a.machine a.command with
  | none => exact .error (.missing _)
  | some r =>
    simp only [Except.bind]
    split
    · exact .ok _
    · exact .error (.failed _ _ _)

theorem unmarked_checked (env : Environment) (a : Attempt) : FailsOnly Unmarked (a.checked env) :=
  fun e he => (a.mechanical_checked env e he).unmarked

theorem isOk_checked (a : Attempt) : (a.checked env).isOk = a.succeeds env := by
  unfold checked answer succeeds
  cases env.tool a.machine a.command with
  | none => rfl
  | some r => cases hs : r.1.status == some 0 <;> simp [Except.bind, hs, Except.isOk, Except.toBool]

/-- The outcome of a command depends on nothing but the command and what the tool answers. -/
theorem checked_congr {env' : Environment} {a a' : Attempt}
    (hcommand : a.command = a'.command)
    (h : (env.tool a.machine a.command).map (·.1) = (env'.tool a'.machine a'.command).map (·.1)) :
    a.checked env = a'.checked env' := by
  have hanswer : a.answer env = a'.answer env' := by
    unfold answer
    cases htool : env.tool a.machine a.command with
    | none =>
      rw [htool, Option.map_none, eq_comm, Option.map_eq_none_iff] at h
      rw [h, hcommand]
    | some r =>
      rw [htool, Option.map_some, eq_comm, Option.map_eq_some_iff] at h
      obtain ⟨r', hr', heq⟩ := h
      rw [hr']
      exact congrArg Except.ok heq.symm
  rw [checked, checked, hanswer, hcommand]

theorem succeeds_of_checked {a : Attempt} {o : Output} (h : a.checked env = .ok o) :
    a.succeeds env = true := by
  rw [← isOk_checked, h]
  rfl

theorem not_succeeds_of_checked {a : Attempt} {e : Failure} (h : a.checked env = .error e) :
    a.succeeds env = false := by
  rw [← isOk_checked, h]
  rfl

/-- A tool that answers is called. -/
theorem isOk_answer (a : Attempt) : (a.answer env).isOk = (a.call? env).isSome := by
  unfold answer call?
  cases env.tool a.machine a.command <;> rfl

theorem isSome_call?_of_succeeds {a : Attempt} (h : a.succeeds env = true) :
    (a.call? env).isSome = true := by
  unfold succeeds at h
  unfold call?
  cases htool : env.tool a.machine a.command with
  | none =>
    rw [htool] at h
    cases h
  | some r => rfl

end Attempt

namespace Action

theorem perform_run_eq (c : Command) (m : Machine) : (run env c).perform m =
    (Attempt.answer env ⟨m, c⟩, Attempt.after env ⟨m, c⟩) := by
  rw [perform_run, Attempt.answer, Attempt.after]
  cases env.tool m c <;> rfl

theorem perform_runChecked (c : Command) (m : Machine) : (runChecked env c).perform m =
    (Attempt.checked env ⟨m, c⟩, Attempt.after env ⟨m, c⟩) := by
  unfold runChecked
  rw [perform_bind, perform_run_eq, Attempt.checked]
  cases Attempt.answer env ⟨m, c⟩ with
  | error e => rfl
  | ok o => cases hs : o.status == some 0 <;> simp [Except.bind, Output.success, hs]

end Action

/-- A step that changes no file and runs no tool. -/
structure Machine.Still (m m' : Machine) : Prop where
  files : m'.files = m.files
  calls : m'.calls = m.calls

/-- A step that only tells or logs something. -/
inductive Machine.Reports (m : Machine) : Machine → Prop
  | told (n : Notice) : Reports m (m.record (.told n))
  | logged (level : Level) (text : String) : Reports m (m.record (.logged level text))

namespace Course

theorem append (h : Course env quiet m as m₁) (h' : Course env quiet m₁ bs m') :
    Course env quiet m (as ++ bs) m' := by
  induction h with
  | refl => exact h'
  | quiet hq _ ih => exact .quiet hq (ih h')
  | ask c _ ih => exact .ask c (ih h')

/-- What quiet steps and answers preserve holds at the end, and whenever a tool is asked for. -/
theorem preserves {P : Machine → Prop} (h : Course env quiet m as m')
    (hquiet : ∀ m m', quiet m m' → P m → P m')
    (hask : ∀ a ∈ as, P a.machine → P (a.after env)) (hm : P m) :
    P m' ∧ ∀ a ∈ as, P a.machine := by
  induction h with
  | refl => exact ⟨hm, by simp⟩
  | quiet hq _ ih => exact ih hask (hquiet _ _ hq hm)
  | ask c _ ih =>
    obtain ⟨hend, hall⟩ := ih (fun a ha => hask a (.tail _ ha)) (hask _ List.mem_cons_self hm)
    refine ⟨hend, ?_⟩
    intro a ha
    rcases List.mem_cons.1 ha with rfl | ha
    · exact hm
    · exact hall a ha

theorem calls (h : Course env quiet m as m')
    (hquiet : ∀ m m', quiet m m' → m'.calls = m.calls) :
    m'.calls = m.calls ++ as.filterMap (Attempt.call? env) := by
  induction h with
  | refl => simp
  | quiet hq _ ih => rw [ih, hquiet _ _ hq]
  | ask c _ ih =>
    rw [ih, Attempt.calls_after, List.append_assoc, List.filterMap_cons]
    cases Attempt.call? env _ <;> rfl

/-- A property of the files is kept by a course if the tools that are asked for keep it. -/
theorem files {Q : FileTree → Prop} (h : Course env quiet m as m')
    (hquiet : ∀ m m', quiet m m' → m'.files = m.files)
    (htools : ∀ a ∈ as, ∀ o t, env.tool a.machine a.command = some (o, t) →
      Q a.machine.files → Q t) (hm : Q m.files) : Q m'.files := by
  refine (h.preserves (P := fun m => Q m.files) ?_ ?_ hm).1
  · intro m m' hq hm
    rwa [hquiet m m' hq]
  · intro a ha hm
    rcases @Attempt.files_after env a with hsame | ⟨o, htool⟩
    · rwa [hsame]
    · exact htools a ha o _ htool hm

end Course

/-- A machine that was asked and otherwise left alone: no file was written, nothing was flushed, and
no reboot was armed. The files are as before if the tools that were asked for change none. -/
structure LeftAlone (env : Environment) (m m' : Machine) (as : List Attempt) : Prop where
  history : ∃ events, m'.history = m.history ++ events ∧ ∀ v ∈ events,
    (∃ n, v = .told n) ∨ (∃ level text, v = .logged level text) ∨ ∃ call, v = .ran call
  calls : m'.calls = m.calls ++ as.filterMap (Attempt.call? env)
  armed : m'.armed = m.armed
  files : (∀ a ∈ as, ∀ o t, env.tool a.machine a.command = some (o, t) → t = a.machine.files) →
    m'.files = m.files

namespace Machine.Reports

theorem calls (h : m.Reports m') : m'.calls = m.calls := by
  cases h <;> simp [Machine.calls, Machine.record]

theorem files (h : m.Reports m') : m'.files = m.files := by
  cases h <;> rfl

theorem armed (h : m.Reports m') : m'.armed = m.armed := by
  cases h <;> rfl

theorem history (h : m.Reports m') : ∃ v, m'.history = m.history ++ [v] ∧
    ((∃ n, v = .told n) ∨ ∃ level text, v = .logged level text) := by
  cases h with
  | told n => exact ⟨_, rfl, .inl ⟨n, rfl⟩⟩
  | logged level text => exact ⟨_, rfl, .inr ⟨level, text, rfl⟩⟩

end Machine.Reports

namespace Course

/-- What quiet steps record, and the answers of tools. -/
theorem adds {P : Event → Prop} (h : Course env quiet m as m')
    (hquiet : ∀ m m', quiet m m' → m.Adds P m')
    (hran : ∀ a ∈ as, ∀ call ∈ a.call? env, P (.ran call)) : m.Adds P m' := by
  induction h with
  | refl => exact .refl P _
  | quiet hq _ ih => exact (hquiet _ _ hq).trans (ih hran)
  | ask c _ ih =>
    exact (Attempt.adds_after (hran _ List.mem_cons_self)).trans
      (ih fun a ha => hran a (.tail _ ha))

theorem history (h : Course env Machine.Reports m as m') :
    ∃ events, m'.history = m.history ++ events ∧ ∀ v ∈ events,
      (∃ n, v = .told n) ∨ (∃ level text, v = .logged level text) ∨ ∃ call, v = .ran call := by
  refine h.adds (fun _ _ hq => ?_) fun _ _ call _ => .inr (.inr ⟨call, rfl⟩)
  obtain ⟨v, hv, htold | hlogged⟩ := hq.history
  · exact ⟨[v], hv, by simpa using .inl htold⟩
  · exact ⟨[v], hv, by simpa using .inr (.inl hlogged)⟩

theorem leftAlone (h : Course env Machine.Reports m as m') : LeftAlone env m m' as where
  history := h.history
  calls := h.calls fun _ _ hq => hq.calls
  armed := by
    refine (h.preserves (P := fun m₁ => m₁.armed = m.armed) ?_ ?_ rfl).1
    · intro m₁ m₂ hq hm
      rw [hq.armed, hm]
    · intro a _ hm
      rw [Attempt.armed_after, hm]
  files := by
    intro htools
    refine h.files (Q := fun t => t = m.files) (fun _ _ hq => hq.files) ?_ rfl
    intro a ha o t htool hm
    rw [htools a ha o t htool, hm]

end Course

namespace Follows

variable {passes : Attempt → Bool} {done : Bool}

theorem of_cons {c : Command} (h : Follows passes (c :: cs) as done) :
    ∃ a rest, as = a :: rest ∧ a.command = c ∧
      ((passes a = false ∧ rest = [] ∧ done = false) ∨
        (passes a = true ∧ Follows passes cs rest done)) := by
  cases h with
  | stopped hp => exact ⟨_, [], rfl, rfl, .inl ⟨hp, rfl, rfl⟩⟩
  | passed hp rest => exact ⟨_, _, rfl, rfl, .inr ⟨hp, rest⟩⟩

theorem congr {passes' : Attempt → Bool} (h : Follows passes cs as done)
    (heq : ∀ a, a.command ∈ cs → passes a = passes' a) : Follows passes' cs as done := by
  induction h with
  | finished => exact .finished
  | stopped hp => exact .stopped (heq _ List.mem_cons_self ▸ hp)
  | passed hp _ ih =>
    exact .passed (heq _ List.mem_cons_self ▸ hp) (ih fun a ha => heq a (.tail _ ha))

theorem isPrefix (h : Follows passes cs as done) : as.map (·.command) <+: cs := by
  induction h with
  | finished => exact List.prefix_rfl
  | stopped => simp
  | passed _ _ ih => simpa using ih

/-- Only the last attempt may not pass. -/
theorem passes_of_mem_dropLast (h : Follows passes cs as done) : ∀ a ∈ as.dropLast, passes a := by
  induction h with
  | finished => simp
  | stopped => simp
  | @passed a' cs as done hp rest ih =>
    intro a ha
    cases as with
    | nil => simp at ha
    | cons b bs =>
      rcases List.mem_cons.1 ha with rfl | ha
      · exact hp
      · exact ih a ha

theorem done_iff (h : Follows passes cs as done) :
    done = true ↔ as.length = cs.length ∧ ∀ a ∈ as, passes a := by
  induction h with
  | finished => simp
  | stopped hp => simp [hp]
  | passed hp _ ih => simp [ih, hp]

theorem last_fails (h : Follows passes cs as false) :
    ∃ a, as.getLast? = some a ∧ passes a = false := by
  generalize hd : false = done at h
  induction h with
  | finished => cases hd
  | stopped hp => exact ⟨_, rfl, hp⟩
  | @passed a' cs as done hp rest ih =>
    obtain ⟨a, ha, hf⟩ := ih hd
    refine ⟨a, ?_, hf⟩
    cases as with
    | nil => cases ha
    | cons b bs => rwa [List.getLast?_cons_cons]

theorem of_forall {as : List Attempt} (h : ∀ a ∈ as, passes a = true) :
    Follows passes (as.map (·.command)) as true := by
  induction as with
  | nil => exact .finished
  | cons a as ih => exact .passed (h a List.mem_cons_self) (ih fun b hb => h b (.tail _ hb))

theorem append {ds : List Command} (h : Follows passes cs as true)
    (h' : Follows passes ds bs done) : Follows passes (cs ++ ds) (as ++ bs) done := by
  generalize hd : true = stop at h
  induction h with
  | finished => exact h'
  | stopped => cases hd
  | passed hp _ ih => exact .passed hp (ih hd)

theorem append_of_stopped (h : Follows passes cs as false) (ds : List Command) :
    Follows passes (cs ++ ds) as false := by
  generalize hd : false = stop at h
  induction h with
  | finished => cases hd
  | stopped hp => exact .stopped hp
  | passed hp _ ih => exact .passed hp (ih hd)

/-- A plan is broken off at an attempt if and only if that does not pass. -/
theorem stops_iff (h : Follows passes cs as done) {a : Attempt} (ha : a ∈ as) :
    done = false ∧ as.getLast? = some a ↔ passes a = false := by
  constructor
  · rintro ⟨rfl, hlast⟩
    obtain ⟨b, hb, hfail⟩ := h.last_fails
    rw [hlast] at hb
    rwa [Option.some.inj hb]
  · intro hfail
    induction h with
    | finished => cases ha
    | stopped => exact ⟨rfl, by rw [List.mem_singleton.1 ha, List.getLast?_singleton]⟩
    | @passed b cs as done hp rest ih =>
      rcases List.mem_cons.1 ha with rfl | ha
      · rw [hp] at hfail
        cases hfail
      · obtain ⟨hdone, hlast⟩ := ih ha
        obtain ⟨c, as, rfl⟩ := List.exists_cons_of_ne_nil (List.ne_nil_of_mem ha)
        exact ⟨hdone, by rwa [List.getLast?_cons_cons]⟩

end Follows

/-! ### Steps that only ask -/

/-- The commands that were run when tools were asked for. -/
def ran (env : Environment) (as : List Attempt) : List Command :=
  (as.filterMap (Attempt.call? env)).map (·.command)

theorem ran_append (as bs : List Attempt) : ran env (as ++ bs) = ran env as ++ ran env bs := by
  simp [ran]

theorem ran_prefix_of_answered (h : ∀ a ∈ as.dropLast, (a.call? env).isSome = true) :
    ran env as <+: as.map (·.command) := by
  rcases List.eq_nil_or_concat as with rfl | ⟨front, last, rfl⟩
  · exact List.prefix_rfl
  · rw [List.concat_eq_append, List.dropLast_concat] at h
    have hfront : ran env front = front.map (·.command) := by
      induction front with
      | nil => rfl
      | cons a front ih =>
        obtain ⟨call, hcall⟩ := Option.isSome_iff_exists.1 (h a List.mem_cons_self)
        have hcommand : call.command = a.command := by
          obtain ⟨answer, -, rfl⟩ := Option.map_eq_some_iff.1 hcall
          rfl
        have hrest := ih fun b hb => h b (.tail _ hb)
        rw [← List.singleton_append, ran_append, hrest, List.map_append]
        simp [ran, hcall, hcommand]
    have hlast : ran env [last] <+: [last].map (·.command) := by
      unfold ran Attempt.call?
      cases htool : env.tool last.machine last.command <;> simp [htool]
    rw [List.concat_eq_append, ran_append, hfront, List.map_append]
    exact (List.prefix_append_right_inj _).2 hlast

/-- Whether a step changes nothing itself, runs commands in turn, all of them if it succeeds, and
fails without a mark. -/
def Asks {α : Type} (env : Environment) (a : Action α) (cs : List Command) : Prop :=
  ∀ m, ∃ as, Course env Machine.Reports m as (a.perform m).2 ∧ ran env as <+: cs ∧
    ((a.perform m).1.isOk = true → ran env as = cs) ∧ FailsOnly Unmarked (a.perform m).1

namespace Asks

variable {α β γ : Type} {ds : List Command}

theorem of_still {a : Action α} (h : ∀ m, (a.perform m).2 = m)
    (hfails : Action.FailsOnly Unmarked a) : Asks env a [] := by
  intro m
  rw [h m]
  exact ⟨[], .refl m, List.prefix_rfl, fun _ => rfl, hfails m⟩

theorem pure (x : α) : Asks env (pure x : Action α) [] := of_still (fun _ => rfl) (.pure x)

theorem get : Asks env (get : Action Machine) [] := of_still (fun _ => rfl) fun m => .ok m

theorem throw {e : Failure} (h : Unmarked e) : Asks env (throw e : Action α) [] :=
  of_still (fun _ => rfl) (.throw h)

theorem ofExcept {r : Except Failure α} (h : FailsOnly Unmarked r) :
    Asks env (Action.ofExcept r) [] := of_still (fun _ => rfl) (.ofExcept h)

theorem report {a : Action Unit} (h : ∀ m : Machine, m.Reports (a.perform m).2)
    (hfails : Action.FailsOnly Unmarked a) : Asks env a [] := fun m =>
  ⟨[], .quiet (h m) (.refl _), List.prefix_rfl, fun _ => rfl, hfails m⟩

theorem announce (text : String) : Asks env (Action.announce text) [] :=
  report (fun _ => .told _) (.note _)

theorem logInfo (text : String) : Asks env (Action.logInfo text) [] :=
  report (fun _ => .logged _ _) (.note _)

theorem run (c : Command) : Asks env (Action.run env c) [c] := by
  intro m
  refine ⟨[⟨m, c⟩], ?_⟩
  rw [Action.perform_run_eq]
  unfold ran Attempt.answer Attempt.call?
  cases htool : env.tool m c with
  | none =>
    refine ⟨.ask c (.refl _), by simp [htool], ?_, .error rfl⟩
    intro hok
    cases hok
  | some r => exact ⟨.ask c (.refl _), by simp [htool], fun _ => by simp [htool], .ok _⟩

theorem bind {a : Action α} {f : α → Action β} (ha : Asks env a cs) (hf : ∀ x, Asks env (f x) ds) :
    Asks env (a >>= f) (cs ++ ds) := by
  intro m
  obtain ⟨as, hcourse, hran, hall, hfails⟩ := ha m
  rw [Action.perform_bind]
  cases hp : a.perform m with
  | mk r m₁ =>
    rw [hp] at hcourse hall hfails
    cases r with
    | error e =>
      refine ⟨as, hcourse, hran.trans (List.prefix_append cs ds), ?_, .error (hfails e rfl)⟩
      intro hok
      cases hok
    | ok x =>
      obtain ⟨bs, hcourse', hran', hall', hfails'⟩ := hf x m₁
      have hcs : ran env as = cs := hall rfl
      refine ⟨as ++ bs, hcourse.append hcourse', ?_, ?_, hfails'⟩
      · rw [ran_append, hcs]
        exact List.prefix_append_right_inj cs |>.2 hran'
      · intro hok
        rw [ran_append, hcs, hall' hok]

theorem runChecked (c : Command) : Asks env (Action.runChecked env c) [c] := by
  refine (run c).bind fun o => ?_
  split
  · exact pure o
  · exact throw rfl

theorem foldlM {f : α → γ → Action α} {q : γ → Command} (hf : ∀ x y, Asks env (f x y) [q y])
    (l : List γ) (x : α) : Asks env (l.foldlM f x) (l.map q) := by
  induction l generalizing x with
  | nil => exact pure x
  | cons y l ih =>
    rw [List.foldlM_cons, List.map_cons]
    exact (hf x y).bind fun x' => ih x'

end Asks

/-! ### Steps that follow a plan -/

/-- Whether a step on a machine changes nothing itself and asks for the commands of a plan in turn,
until one does not pass. It succeeds if and only if all of them pass. -/
def Obeys {α : Type} (env : Environment) (passes : Attempt → Bool) (a : Action α) (cs : List Command)
    (m : Machine) : Prop :=
  ∃ as, Course env Machine.Reports m as (a.perform m).2 ∧ Follows passes cs as (a.perform m).1.isOk

namespace Obeys

variable {α β : Type} {passes : Attempt → Bool} {ds : List Command} {a : Action α}

theorem pure (x : α) : Obeys env passes (pure x : Action α) [] m := ⟨[], .refl m, .finished⟩

theorem logInfo (text : String) : Obeys env passes (Action.logInfo text) [] m :=
  ⟨[], .quiet (.logged _ _) (.refl _), .finished⟩

theorem congr {passes' : Attempt → Bool} (h : Obeys env passes a cs m)
    (heq : ∀ m, ∀ c ∈ cs, passes ⟨m, c⟩ = passes' ⟨m, c⟩) : Obeys env passes' a cs m := by
  obtain ⟨as, hcourse, hfollows⟩ := h
  exact ⟨as, hcourse, hfollows.congr fun a ha => heq a.machine a.command ha⟩

/-- A single request. What is made of its answer decides whether it passes. -/
theorem of_attempt {c : Command} (hpasses : passes ⟨m, c⟩ = (a.perform m).1.isOk)
    (hafter : (a.perform m).2 = Attempt.after env ⟨m, c⟩) : Obeys env passes a [c] m := by
  refine ⟨[⟨m, c⟩], hafter ▸ .ask c (.refl _), ?_⟩
  cases hok : (a.perform m).1.isOk with
  | true => exact .passed (hpasses.trans hok) .finished
  | false => exact .stopped (hpasses.trans hok)

theorem run {c : Command} (h : passes ⟨m, c⟩ = (Attempt.answer env ⟨m, c⟩).isOk) :
    Obeys env passes (Action.run env c) [c] m :=
  of_attempt (by rw [Action.perform_run_eq, h]) (by rw [Action.perform_run_eq])

theorem runChecked {c : Command} (h : passes ⟨m, c⟩ = Attempt.succeeds env ⟨m, c⟩) :
    Obeys env passes (Action.runChecked env c) [c] m :=
  of_attempt (by rw [Action.perform_runChecked, h, Attempt.isOk_checked])
    (by rw [Action.perform_runChecked])

theorem bind {f : α → Action β} (ha : Obeys env passes a cs m)
    (hf : ∀ x m₁, a.perform m = (.ok x, m₁) → Obeys env passes (f x) ds m₁) :
    Obeys env passes (a >>= f) (cs ++ ds) m := by
  obtain ⟨as, hcourse, hfollows⟩ := ha
  unfold Obeys
  rw [Action.perform_bind]
  cases hp : a.perform m with
  | mk r m₁ =>
    rw [hp] at hcourse hfollows
    cases r with
    | error e => exact ⟨as, hcourse, hfollows.append_of_stopped ds⟩
    | ok x =>
      obtain ⟨bs, hcourse', hfollows'⟩ := hf x m₁ hp
      exact ⟨as ++ bs, hcourse.append hcourse', hfollows.append hfollows'⟩

theorem foldlM {γ : Type} {f : α → γ → Action α} {q : γ → Command}
    (hf : ∀ x y m, Obeys env passes (f x y) [q y] m) (l : List γ) (x : α) (m : Machine) :
    Obeys env passes (l.foldlM f x) (l.map q) m := by
  induction l generalizing x m with
  | nil => exact pure x
  | cons y l ih =>
    rw [List.foldlM_cons]
    exact (hf x y m).bind fun x' m₁ _ => ih x' m₁

theorem marking (step : String) (ha : Obeys env passes a cs m) :
    Obeys env passes (Action.marking step a) cs m := by
  obtain ⟨as, hcourse, hfollows⟩ := ha
  refine ⟨as, hcourse, ?_⟩
  rw [Action.perform_marking]
  cases hr : (a.perform m).1 with
  | error e => rwa [hr] at hfollows
  | ok x => rwa [hr] at hfollows

end Obeys

end Groundwork
