import Groundwork.Proofs.CommandLine.Session
import Groundwork.Proofs.Install.Boundary
import Groundwork.Proofs.Reboot
import Groundwork.Proofs.Reset.Steps
import Groundwork.Proofs.Spared

/-! What comes of the orders that destroy data: first what has to be known to ask for a yes, then the
question, and only after a yes the work. -/
namespace Groundwork

/-- Whether an order destroys data. -/
def Order.destroys : Order → Bool
  | .install _ | .reset .. | .encrypt _ => true
  | _ => false

/-- Whether an order waits for the reboot that it arms. -/
def Order.reboots : Order → Bool
  | .install _ | .reset .. => true
  | _ => false

/-- The commands that may be run before the operator is asked. -/
def Order.queries : Order → List Command
  | .install _ => Disk.listings
  | _ => []

namespace CommandLine

variable {env : Environment} {config : Config} {environment : Config → Environment}
  {arguments : List String} {input : Input} {call : Invocation} {m m₁ m' : Machine} {order : Order}
  {work : Action (List String)}

/-- A machine on which the operator was shown some lines. -/
def shown : List String → Machine → Machine
  | [], m => m
  | line :: lines, m => shown lines (m.record (.printed line))

/-- A machine on which the operator was shown some lines and asked for a yes. -/
def asked (lines : List String) (m : Machine) : Machine := (shown lines m).record (.printed prompt)

def planLines (plan : InstallPlan) : List String :=
  [s!"Source: {plan.source.device}", s!"Target: {plan.target.text}", "",
    s!"⚠️  WARNING: This will ERASE ALL DATA on {plan.target.text}"]

def requestLines (request : ResetRequest) : List String :=
  [s!"Seeds to write: {Text.commaSeparated request.seeds.keys}",
    "Existing seeds: " ++ if request.wipeSeeds then "dropped" else "kept", "", resetWarning]

def recordLines (record : KeyRecord) : List String :=
  [s!"✓ {record.deviceId} encrypted", s!"  Key file: {record.keyFile}",
    s!"  Key: {record.encodedKey}"]

/-- The work that an order comes to, with the lines that the operator is shown at its end, and the
machine on which the operator is asked for a yes to it. -/
inductive Proposes (env : Environment) (config : Config) (m : Machine) :
    Order → Action (List String) → Machine → Prop
  | install {options : InstallOptions} {plan : InstallPlan} {m₁ : Machine}
    (h : (Install.plan env config options).perform m = (.ok plan, m₁)) :
    Proposes env config m (.install options)
      (do
        let delay ← Install.run env config options
        return [doneText "Install" delay])
      (asked (planLines plan) m₁)
  /-- The switches of the command line only add to the request. -/
  | reset {seeds : List String} {path : Option String} {wipeSeeds allowChipFailure : Bool}
    {request whole : ResetRequest} (h : Requested m.files seeds path request)
    (hwhole : whole = { request with
      wipeSeeds := request.wipeSeeds || wipeSeeds
      allowChipFailure := request.allowChipFailure || allowChipFailure }) :
    Proposes env config m (.reset seeds path wipeSeeds allowChipFailure)
      (do
        let delay ← Reset.run env config whole
        return [doneText "Reset" (some delay)])
      (asked (requestLines whole) m)
  | encrypt (device : String) :
    Proposes env config m (.encrypt device)
      (do
        let record ← Encryption.encrypt env config.paths device
        return recordLines record)
      (asked [s!"⚠️  WARNING: This will ERASE ALL DATA on {device}"] m)

/-- What comes of some work: the lines at its end and the reboots that it has armed, or what the
operator is told of its failure. -/
def carriedOut (env : Environment) (order : Order) (work : Action (List String)) (m : Machine) :
    Nat × Machine :=
  match work.perform m with
  | (.ok lines, m') =>
    (0, if order.reboots then ((Action.settle env).perform (shown lines m')).2 else shown lines m')
  | (.error e, m') =>
    (1, (m'.record (.complained (Session.explanation e))).record
      (.complained (Report.ofFailure e).text))

/-- What a step before the question does to a machine. -/
structure Asking (env : Environment) (order : Order) (m m' : Machine) : Prop where
  spared : m.Spared env (· ∈ order.queries) m'
  commands : ∃ cs, cs <+: order.queries ∧ m'.commands = m.commands ++ cs

theorem Asking.refl (env : Environment) (order : Order) (m : Machine) : Asking env order m m :=
  ⟨.refl env _ m, [], List.nil_prefix, by simp⟩

theorem Asking.record {v : Event} (h : Asking env order m m') (hv : v.Spares fun _ => False) :
    Asking env order m (m'.record v) := by
  obtain ⟨cs, hcs, hcommands⟩ := h.commands
  refine ⟨h.spared.trans ((Machine.Spared.record hv m').mono fun _ => False.elim), cs, hcs, ?_⟩
  rw [← hcommands]
  cases v with
  | ran call => exact hv.elim
  | _ => simp [Machine.commands, Machine.calls, Machine.record]

/-- Induction on the lines. -/
theorem Asking.shown (lines : List String) (h : Asking env order m m') :
    Asking env order m (shown lines m') := by
  induction lines generalizing m' with
  | nil => exact h
  | cons line lines ih => exact ih (h.record trivial)

theorem asking_plan (options : InstallOptions) (m : Machine) : Asking env (.install options) m
    ((Install.plan env config options).perform m).2 := by
  obtain ⟨hspared, hcommands⟩ := Machine.Spared.of_asks (@Install.asks_plan env config options) m
  exact ⟨hspared, hcommands⟩

/-- What comes before the question spares the machine. -/
theorem Proposes.asking (h : Proposes env config m order work m₁) : Asking env order m m₁ := by
  cases h with
  | @install options plan m₁ h =>
    have hplan := @asking_plan env config options m
    rw [h] at hplan
    exact (hplan.shown _).record trivial
  | reset => exact ((Asking.refl env _ m).shown _).record trivial
  | encrypt device => exact ((Asking.refl env _ m).shown _).record trivial

theorem outcome_showPlan (plan : InstallPlan) (m : Machine) :
    (showPlan plan).outcome m = (.ok (), shown (planLines plan) m) := rfl

theorem outcome_showRequest (request : ResetRequest) (m : Machine) :
    (showRequest request).outcome m = (.ok (), shown (requestLines request) m) := rfl

/-! ### The work -/

/-- A workflow whose result is shown is carried out, if what follows it in the program is the end of
the order. -/
theorem run_conclude_explained {α : Type} {a : Action α} {lines : α → List String}
    {f : α → Session Unit} (h : ∀ x m, (f x).outcome m = (.ok (),
      if order.reboots then ((Action.settle env).perform (shown (lines x) m)).2
      else shown (lines x) m)) (m : Machine) :
    (conclude (do f (← Session.explained a))).run m =
      carriedOut env order (do return lines (← a)) m := by
  have houtcome := Session.outcome_explained a m
  rw [run_conclude, carriedOut, Action.perform_bind]
  cases hperform : a.perform m with
  | mk r m₁ =>
    rw [hperform] at houtcome
    cases r with
    | error e => rw [Session.outcome_bind_of_error _ houtcome]
    | ok x =>
      rw [Session.outcome_bind_of_ok _ houtcome, h]
      rfl

theorem outcome_settle (m : Machine) : (Session.perform (Action.settle env)).outcome m =
    (.ok (), ((Action.settle env).perform m).2) := by
  obtain ⟨m', events, hsettle, -⟩ := settle_comes env m
  rw [Session.outcome_perform, hsettle]
  rfl

theorem run_installNow (options : InstallOptions) (m : Machine) :
    (conclude (installNow env config options)).run m = carriedOut env (.install options) (do
      let delay ← Install.run env config options
      return [doneText "Install" delay]) m :=
  run_conclude_explained (fun _ _ => (Session.outcome_bind_of_ok _ (Session.outcome_print _ _)).trans
    (outcome_settle _)) m

theorem run_resetNow (request : ResetRequest) (m : Machine) {seeds : List String}
    {path : Option String} {wipeSeeds allowChipFailure : Bool} :
    (conclude (resetNow env config request)).run m =
      carriedOut env (.reset seeds path wipeSeeds allowChipFailure) (do
        let delay ← Reset.run env config request
        return [doneText "Reset" (some delay)]) m :=
  run_conclude_explained (fun _ _ => (Session.outcome_bind_of_ok _ (Session.outcome_print _ _)).trans
    (outcome_settle _)) m

theorem run_encryptNow (device : String) (m : Machine) :
    (conclude (encryptNow env config device)).run m = carriedOut env (.encrypt device) (do
      let record ← Encryption.encrypt env config.paths device
      return recordLines record) m :=
  @run_conclude_explained env (.encrypt device) _ _ recordLines
    (fun record => do
      Session.print s!"✓ {record.deviceId} encrypted"
      Session.print s!"  Key file: {record.keyFile}"
      Session.print s!"  Key: {record.encodedKey}") (fun _ _ => rfl) m

/-- An order that can be proposed goes on with the question, and then with its work. -/
theorem Proposes.outcome_execute (h : Proposes env config m order work m₁) :
    ∃ cancelled session m₂, m₁ = m₂.record (.printed prompt) ∧
      (execute env config input order).outcome m =
        (withConsent input cancelled session).outcome m₂ ∧
      (conclude session).run m₁ = carriedOut env order work m₁ := by
  cases h with
  | @install options plan m₁ h =>
    exact ⟨"Install cancelled.", installNow env config options, _, rfl,
      (Session.outcome_bind_of_ok _ (Session.outcome_explained_of_ok h)).trans
        (Session.outcome_bind_of_ok _ (outcome_showPlan plan m₁)), run_installNow options _⟩
  | @reset seeds path wipeSeeds allowChipFailure request whole h hwhole =>
    refine ⟨"Reset cancelled.", resetNow env config whole, _, rfl, ?_, run_resetNow whole _⟩
    have hread := Session.outcome_mk (readRequest m.files seeds path) m
    rw [readRequest_eq_ok_iff.2 h] at hread
    rw [execute, Session.outcome_bind_of_ok _ (Session.outcome_files m),
      readRequest_eq_ok_iff.2 h, Session.outcome_bind_of_ok _ hread, switched, ← hwhole,
      CommandLine.reset, Session.outcome_bind_of_ok _ (outcome_showRequest _ m)]
  | encrypt device =>
    exact ⟨"Encryption cancelled.", encryptNow env config device, _, rfl, rfl,
      run_encryptNow device _⟩

/-- An order that cannot be proposed fails before the question. -/
theorem execute_of_not_proposes (hdestroys : order.destroys = true)
    (h : ¬ ∃ work m₁, Proposes env config m order work m₁) : ∃ report m',
    (execute env config input order).outcome m = (.error report, m') ∧ Asking env order m m' := by
  cases order with
  | install options =>
    have hasking := @asking_plan env config options m
    have houtcome := Session.outcome_explained (Install.plan env config options) m
    rcases hplan : (Install.plan env config options).perform m with ⟨e | plan, m₁⟩
    · rw [hplan] at hasking houtcome
      exact ⟨_, _, Session.outcome_bind_of_error _ houtcome, hasking.record trivial⟩
    · exact (h ⟨_, _, .install hplan⟩).elim
  | reset seeds path wipeSeeds allowChipFailure =>
    cases hread : readRequest m.files seeds path with
    | error report =>
      refine ⟨report, m, ?_, .refl env _ m⟩
      rw [execute, Session.outcome_bind_of_ok _ (Session.outcome_files m), hread]
      rfl
    | ok request => exact (h ⟨_, _, .reset (readRequest_eq_ok_iff.1 hread) rfl⟩).elim
  | encrypt device => exact (h ⟨_, _, .encrypt device⟩).elim
  | _ => cases hdestroys

/-- After a yes the work is that of the order. -/
theorem manage_of_agrees (hparse : Invocation.parse? arguments = some call)
    (hload : Config.load call.config (m.files.readText call.config) = .ok config)
    (hyes : agrees input = true)
    (hproposes : Proposes (environment config) config m call.order work m₁) :
    (manage environment arguments input).run m =
      carriedOut (environment config) call.order work m₁ := by
  obtain ⟨cancelled, session, m₂, rfl, houtcome, hwork⟩ :=
    @Proposes.outcome_execute _ _ input _ _ _ _ hproposes
  rw [run_manage hparse hload, ← hwork]
  exact run_conclude_congr
    (houtcome.trans (outcome_withConsent_of_agrees hyes cancelled session m₂))

theorem asking_manage_of_refuses (hparse : Invocation.parse? arguments = some call)
    (hload : Config.load call.config (m.files.readText call.config) = .ok config)
    (hno : agrees input = false)
    (hproposes : Proposes (environment config) config m call.order work m₁) :
    Asking (environment config) call.order m ((manage environment arguments input).run m).2 := by
  obtain ⟨cancelled, session, m₂, rfl, houtcome, -⟩ :=
    @Proposes.outcome_execute _ _ input _ _ _ _ hproposes
  obtain ⟨r, m', hrefused, hends⟩ := outcome_withConsent_of_refuses hno cancelled session m₂
  have hasking : Asking (environment config) call.order m m' := by
    rcases hends with rfl | rfl
    · exact hproposes.asking
    · exact hproposes.asking.record trivial
  rw [run_manage hparse hload, run_conclude, houtcome, hrefused]
  cases r with
  | ok _ => exact hasking
  | error report => exact hasking.record trivial

theorem asking_manage_of_not_proposes (hparse : Invocation.parse? arguments = some call)
    (hload : Config.load call.config (m.files.readText call.config) = .ok config)
    (hdestroys : call.order.destroys = true)
    (hnone : ¬ ∃ work m₁, Proposes (environment config) config m call.order work m₁) :
    ((manage environment arguments input).run m).1 = 1 ∧
      Asking (environment config) call.order m ((manage environment arguments input).run m).2 := by
  obtain ⟨report, m', houtcome, hasking⟩ := @execute_of_not_proposes _ _ input m _ hdestroys hnone
  rw [run_manage hparse hload, run_conclude, houtcome]
  exact ⟨rfl, hasking.record trivial⟩

theorem asking_manage (hparse : Invocation.parse? arguments = some call)
    (hload : Config.load call.config (m.files.readText call.config) = .ok config)
    (hdestroys : call.order.destroys = true)
    (hstops : agrees input = false ∨
      ¬ ∃ work m₁, Proposes (environment config) config m call.order work m₁) :
    Asking (environment config) call.order m ((manage environment arguments input).run m).2 := by
  by_cases hproposes : ∃ work m₁, Proposes (environment config) config m call.order work m₁
  · obtain ⟨work, m₁, hproposes⟩ := hproposes
    exact asking_manage_of_refuses hparse hload (hstops.resolve_right fun h => h ⟨_, _, hproposes⟩)
      hproposes
  · exact (asking_manage_of_not_proposes hparse hload hdestroys hproposes).2

end CommandLine

end Groundwork
