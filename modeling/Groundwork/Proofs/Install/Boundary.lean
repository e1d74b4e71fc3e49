import Groundwork.Install
import Groundwork.Machine.Scripted
import Groundwork.Proofs.Course
import Groundwork.Proofs.Install.Source

/-! The boundary of an installation. Before the teardown the machine is only asked; after it every
failure is marked. -/
namespace Groundwork

variable {env : Environment} {config : Config} {options : InstallOptions} {m m' : Machine}

/-! ### Looking for the source and the target -/

theorem Source.asks_detect : Asks env (Source.detect env config) [] := by
  intro m
  rcases @Source.detect_cases env config m with ⟨source, text, h, -⟩ | ⟨e, h, hunmarked, -⟩
  · rw [h]
    exact ⟨[], .quiet (.logged _ _) (.refl _), List.prefix_rfl, fun _ => rfl, .ok _⟩
  · rw [h]
    exact ⟨[], .refl _, List.prefix_rfl, fun _ => rfl, .error hunmarked⟩

namespace Disk

/-- The commands that list the disks of the three classes. -/
def listings : List Command :=
  ["-N", "-S", "-v"].map fun flag =>
    ⟨"lsblk", [flag, "-iJnpb", "-e", "1,2", "-o", "KNAME,ID_LINK,SIZE"]⟩

theorem asks_ofClass (c : DiskClass) : Asks env (ofClass env c) [c.query] := by
  have hlisting (listing : String) : FailsOnly Unmarked (ofListing listing) := by
    unfold ofListing
    split
    · exact .ok _
    · exact .mapError _ fun _ => rfl
  exact (Asks.runChecked _).bind fun o => .ofExcept (hlisting _)

theorem asks_all : Asks env (all env) Disk.listings :=
  Asks.foldlM (fun _ c => (asks_ofClass c).bind fun _ => .pure _) _ _

theorem unmarked_selectTarget (t : FileTree) (source : Source) (candidates : List Disk)
    (selector : Option String) :
    FailsOnly Unmarked (selectTarget t config source candidates selector) := by
  unfold selectTarget
  split
  · exact .error rfl
  · have hpick (eligible : List Disk) :
        FailsOnly Unmarked (pick t config.paths eligible selector) := by
      unfold pick
      split
      · split
        · exact .ok _
        · exact .error rfl
      · split
        · exact .ok _
        · exact .error rfl
        · exact .error rfl
    refine (hpick _).bind fun d => ?_
    split
    · exact .error rfl
    · exact .ok _

end Disk

/-! ### The look at the target's table -/

/-- The state of a table that an answer tells of: a tool that succeeds says if it found none, and
one that fails says if it found the backup intact. -/
def Attempt.tableState? (env : Environment) (a : Attempt) : Option TableState := do
  let o ← (a.answer env).toOption
  if o.status == some 0 then
    some (if o.mentions "Creating new GPT entries in memory" then .absent else .present)
  else if o.mentions
      "Caution: invalid main GPT header, but valid backup; regenerating main header" then
    some .damaged
  else none

namespace PartitionTable

theorem asks_check (disk : String) :
    Asks env (check env disk) [checkCommand disk] := by
  have hstate (o : Output) : FailsOnly Unmarked (stateOf disk o) := by
    unfold stateOf
    split
    · exact .ok _
    · split
      · exact .ok _
      · exact .error rfl
  exact (Asks.run _).bind fun o => .ofExcept (hstate o)

theorem perform_check (disk : String) (m : Machine) : (check env disk).perform m =
    ((Attempt.answer env ⟨m, checkCommand disk⟩).bind (stateOf disk),
      Attempt.after env ⟨m, checkCommand disk⟩) := by
  unfold check
  rw [Action.perform_bind, Action.perform_run_eq]
  cases Attempt.answer env ⟨m, checkCommand disk⟩ <;> rfl

theorem toOption_check (disk : String) (m : Machine) :
    ((check env disk).perform m).1.toOption = Attempt.tableState? env ⟨m, checkCommand disk⟩ := by
  rw [perform_check, Attempt.tableState?]
  cases Attempt.answer env ⟨m, checkCommand disk⟩ with
  | error e => rfl
  | ok o =>
    change (stateOf disk o).toOption = if o.success then some _ else _
    by_cases hs : o.success = true
    · rw [stateOf, if_pos hs, if_pos hs]
      rfl
    · rw [stateOf, if_neg hs, if_neg hs]
      by_cases hmark : o.mentions damageMark = true
      · rw [if_pos hmark]
        exact (if_pos hmark).symm
      · rw [if_neg hmark]
        exact (if_neg hmark).symm

end PartitionTable

namespace Install

theorem asks_plan : Asks env (plan env config options) Disk.listings := by
  have htarget (source : Source) (candidates : List Disk) : Asks env (do
      let target ← Action.ofExcept
        (Disk.selectTarget (← get).files config source candidates options.selector)
      return (⟨source, target, candidates⟩ : InstallPlan)) [] :=
    Asks.get.bind fun m => (Asks.ofExcept (Disk.unmarked_selectTarget _ _ _ _)).bind fun _ => .pure _
  have hdisks (source : Source) := Disk.asks_all.bind fun candidates => htarget source candidates
  have hall := (@Source.asks_detect env config).bind hdisks
  rw [List.append_nil, List.nil_append] at hall
  exact hall

/-! ### The two sides of the boundary -/

variable (env config options) in
/-- What comes before the target's table is looked at. -/
def scout : Action InstallPlan := do
  Action.announce "Starting install"
  let plan ← plan env config options
  Action.logInfo s!"Installing from {plan.source.device} to {plan.target.text}"
  return plan

variable (env config options) in
/-- What is known of the source, the target and its table before anything changes. -/
def survey : Action (InstallPlan × TableState) := do
  let plan ← scout env config options
  let state ← PartitionTable.check env plan.target.kernelName
  return (plan, state)

variable (env config options) in
/-- Everything after the boundary. -/
def complete (plan : InstallPlan) (wipes : Bool) : Action (Option Nat) := do
  write env config plan.source plan.target.kernelName wipes
  Action.announce completion
  let gone ← Action.marking "Waiting for media removal"
    (awaitMedia env config plan.source options.forceReboot)
  if gone then
    let delay ← finish config.delays.install
    Action.tell .done
    return some delay
  else return none

theorem perform_eq : Install.perform env config options = (do
    let (plan, state) ← survey env config options
    let wipes ← mustWipe options plan.target.kernelName state
    complete env config options plan wipes) := by
  simp only [Install.perform, survey, scout, complete, bind_assoc, pure_bind]

theorem asks_scout : Asks env (scout env config options) Disk.listings := by
  have hrest (plan : InstallPlan) := (@Asks.logInfo env
    s!"Installing from {plan.source.device} to {plan.target.text}").bind fun _ => .pure plan
  have hall := (Asks.announce "Starting install").bind fun _ =>
    (@asks_plan env config options).bind hrest
  rw [List.append_nil, List.append_nil, List.nil_append] at hall
  exact hall

/-- Every step after the boundary marks its failures, or cannot fail. -/
theorem marked_complete (plan : InstallPlan) (wipes : Bool) :
    Action.FailsOnly Marked (complete env config options plan wipes) := by
  have hwrite : Action.FailsOnly Marked
      (write env config plan.source plan.target.kernelName wipes) :=
    (Action.FailsOnly.marking _ _).bind fun _ =>
      (Action.FailsOnly.forM fun _ _ => .marking _ _).bind fun _ =>
      (Action.FailsOnly.forM fun _ _ => .marking _ _).bind fun _ =>
      (Action.FailsOnly.note _).bind fun _ => .marking _ _
  have hfinish : Action.FailsOnly Marked (finish config.delays.install) :=
    (Action.FailsOnly.note _).bind fun _ =>
      ((Action.FailsOnly.note _).bind fun _ => .modify _).bind fun _ => .pure _
  refine hwrite.bind fun _ => (Action.FailsOnly.note _).bind fun _ =>
    (Action.FailsOnly.marking _ _).bind fun gone => ?_
  split
  · exact hfinish.bind fun _ => (Action.FailsOnly.note _).bind fun _ => .pure _
  · exact .pure _

/-- Whether an installation comes to the teardown: source and target are found, the look at the target's
table tells its state, and an intact one may be installed over. -/
def EntersTeardown (env : Environment) (config : Config) (options : InstallOptions) (m : Machine) :
    Prop :=
  ∃ plan state m₁, (scout env config options).perform m = (.ok plan, m₁) ∧
    Attempt.tableState? env ⟨m₁, ⟨"sgdisk", ["-v", plan.target.kernelName]⟩⟩ = some state ∧
    (state = .present → options.forceInstall = true)

theorem survey_eq_ok_iff {plan : InstallPlan} {state : TableState} :
    (∃ m₂, (survey env config options).perform m = (.ok (plan, state), m₂)) ↔
      ∃ m₁, (scout env config options).perform m = (.ok plan, m₁) ∧
        Attempt.tableState? env ⟨m₁, PartitionTable.checkCommand plan.target.kernelName⟩ =
          some state := by
  simp only [← PartitionTable.toOption_check]
  constructor
  · rintro ⟨m₂, h⟩
    obtain ⟨plan', m₁, hscout, hrest⟩ := Action.perform_bind_eq_ok.1 h
    obtain ⟨state', m₃, hcheck, hpair⟩ := Action.perform_bind_eq_ok.1 hrest
    cases hpair
    exact ⟨m₁, hscout, by rw [hcheck]; rfl⟩
  · rintro ⟨m₁, hscout, hstate⟩
    cases hcheck : (PartitionTable.check env plan.target.kernelName).perform m₁ with
    | mk r m₂ =>
      rw [hcheck] at hstate
      cases r with
      | error e => cases hstate
      | ok state' =>
        cases hstate
        refine ⟨m₂, ?_⟩
        rw [survey, Action.perform_bind_of_ok _ hscout, Action.perform_bind_of_ok _ hcheck]
        rfl

theorem entersTeardown_iff : EntersTeardown env config options m ↔
    ∃ plan state m₂, (survey env config options).perform m = (.ok (plan, state), m₂) ∧
      (state = .present → options.forceInstall = true) := by
  constructor
  · rintro ⟨plan, state, m₁, hscout, hstate, hforce⟩
    obtain ⟨m₂, hsurvey⟩ := survey_eq_ok_iff.2 ⟨m₁, hscout, hstate⟩
    exact ⟨plan, state, m₂, hsurvey, hforce⟩
  · rintro ⟨plan, state, m₂, hsurvey, hforce⟩
    obtain ⟨m₁, hscout, hstate⟩ := survey_eq_ok_iff.1 ⟨m₂, hsurvey⟩
    exact ⟨plan, state, m₁, hscout, hstate, hforce⟩

/-- The commands that may have run on a machine that an installation leaves alone: the queries for
disks in turn, and after all of them the look at the table of the target that was chosen. -/
def RunsOnly (env : Environment) (config : Config) (options : InstallOptions) (m : Machine)
    (cs : List Command) : Prop :=
  cs <+: Disk.listings ∨
    ∃ plan m₁, (scout env config options).perform m = (.ok plan, m₁) ∧
      cs = Disk.listings ++ [⟨"sgdisk", ["-v", plan.target.kernelName]⟩]

theorem mustWipe_eq_error {target : String} {state : TableState} {e : Failure}
    (h : (mustWipe options target state).perform m = (.error e, m')) :
    state = .present ∧ options.forceInstall = false := by
  cases state with
  | absent => cases h
  | damaged => cases h
  | present =>
    rw [mustWipe] at h
    cases hforce : options.forceInstall with
    | true =>
      rw [hforce] at h
      cases h
    | false =>
      exact ⟨rfl, rfl⟩

theorem runsOnly_of_scout {plan : InstallPlan} {m₁ : Machine} {cs : List Command}
    (hscout : (scout env config options).perform m = (.ok plan, m₁))
    (hcs : cs <+: [PartitionTable.checkCommand plan.target.kernelName]) :
    RunsOnly env config options m (Disk.listings ++ cs) := by
  cases cs with
  | nil =>
    rw [List.append_nil]
    exact .inl List.prefix_rfl
  | cons c cs =>
    obtain ⟨rfl, hnil⟩ := List.cons_prefix_cons.1 hcs
    rw [List.prefix_nil.1 hnil]
    exact .inr ⟨plan, m₁, hscout, rfl⟩

theorem perform_of_refused {plan : InstallPlan} {m₁ : Machine}
    (hsurvey : (survey env config options).perform m = (.ok (plan, .present), m₁))
    (hforce : options.forceInstall = false) : (Install.perform env config options).perform m =
      (.error (.existingPartitionTable plan.target.kernelName), m₁) := by
  have hrefused : (mustWipe options plan.target.kernelName .present).perform m₁ =
      (.error (.existingPartitionTable plan.target.kernelName), m₁) := by
    rw [mustWipe, hforce]
    rfl
  rw [perform_eq, Action.perform_bind_of_ok _ hsurvey]
  exact Action.perform_bind_of_error _ hrefused

theorem not_entersTeardown_of_refused {plan : InstallPlan} {m₁ : Machine}
    (hsurvey : (survey env config options).perform m = (.ok (plan, .present), m₁))
    (hforce : options.forceInstall = false) : ¬ EntersTeardown env config options m := by
  intro henters
  obtain ⟨plan', state, m₂, hsurvey', hgoes⟩ := entersTeardown_iff.1 henters
  rw [hsurvey] at hsurvey'
  cases hsurvey'
  rw [hgoes rfl] at hforce
  cases hforce

/-- An installation that does not come to the teardown fails without a mark, and the machine was only
asked. -/
theorem asks_of_not_entersTeardown (h : ¬ EntersTeardown env config options m) :
    ∃ e m' as, (Install.perform env config options).perform m = (.error e, m') ∧
      e.isUntouched = true ∧ Course env Machine.Reports m as m' ∧
      RunsOnly env config options m (ran env as) := by
  rw [perform_eq]
  obtain ⟨as, hcourse, hasked, hall, hfails⟩ := @asks_scout env config options m
  cases hscout : (scout env config options).perform m with
  | mk r m₁ =>
    rw [hscout] at hcourse hall hfails
    cases r with
    | error e =>
      have hsurvey : (survey env config options).perform m = (.error e, m₁) :=
        Action.perform_bind_of_error _ hscout
      exact ⟨e, m₁, as, Action.perform_bind_of_error _ hsurvey, hfails e rfl, hcourse, .inl hasked⟩
    | ok plan =>
      obtain ⟨bs, hcourse', hasked', -, hfails'⟩ :=
        @PartitionTable.asks_check env plan.target.kernelName m₁
      have hcommands : ran env (as ++ bs) =
          Disk.listings ++ ran env bs := by
        rw [ran_append, hall rfl]
      have honly := runsOnly_of_scout hscout hasked'
      rw [← hcommands] at honly
      cases hcheck : (PartitionTable.check env plan.target.kernelName).perform m₁ with
      | mk r m₂ =>
        rw [hcheck] at hcourse' hfails'
        have hwhole := hcourse.append hcourse'
        cases r with
        | error e =>
          have hsurvey : (survey env config options).perform m = (.error e, m₂) := by
            rw [survey, Action.perform_bind_of_ok _ hscout]
            exact Action.perform_bind_of_error _ hcheck
          exact ⟨e, m₂, as ++ bs, Action.perform_bind_of_error _ hsurvey, hfails' e rfl, hwhole,
            honly⟩
        | ok state =>
          have hsurvey : (survey env config options).perform m = (.ok (plan, state), m₂) := by
            rw [survey, Action.perform_bind_of_ok _ hscout, Action.perform_bind_of_ok _ hcheck]
            rfl
          obtain ⟨rfl, hforce⟩ : state = .present ∧ options.forceInstall = false := by
            apply Classical.byContradiction
            intro hgoes
            refine h (entersTeardown_iff.2 ⟨plan, state, m₂, hsurvey, ?_⟩)
            intro hpresent
            cases hforce : options.forceInstall with
            | true => rfl
            | false => exact (hgoes ⟨hpresent, hforce⟩).elim
          have hrefused := perform_of_refused hsurvey hforce
          rw [perform_eq] at hrefused
          exact ⟨_, m₂, as ++ bs, hrefused, rfl, hwhole, honly⟩

/-- An installation that comes to the teardown can fail only with a mark. -/
theorem marked_of_entersTeardown (h : EntersTeardown env config options m) :
    FailsOnly Marked ((Install.perform env config options).perform m).1 := by
  obtain ⟨plan, state, m₁, hsurvey, hforce⟩ := entersTeardown_iff.1 h
  rw [perform_eq, Action.perform_bind_of_ok _ hsurvey, Action.perform_bind]
  cases hwipe : (mustWipe options plan.target.kernelName state).perform m₁ with
  | mk r m₂ =>
    cases r with
    | ok wipes => exact marked_complete plan wipes m₂
    | error e =>
      obtain ⟨hpresent, hnot⟩ := mustWipe_eq_error hwipe
      rw [hforce hpresent] at hnot
      cases hnot

/-! ### The whole installation -/

/-- The notice with which a failed installation ends. -/
def failureNotice (e : Failure) : Notice := .message ("Error: " ++ e.message)

theorem perform_run_eq (m : Machine) : (Install.run env config options).perform m =
    match (Install.perform env config options).perform m with
    | (.ok delay, m') => (.ok delay, m')
    | (.error e, m') => (.error e, m'.record (.told (failureNotice e))) := by
  unfold Install.run
  rw [Action.perform_bind_of_ok _ (Action.perform_attempt _ m)]
  cases (Install.perform env config options).perform m with
  | mk r m' => cases r <;> rfl

theorem run_of_error {e : Failure} {m₁ : Machine}
    (h : (Install.perform env config options).perform m = (.error e, m₁)) :
    (Install.run env config options).perform m =
      (.error e, m₁.record (.told (failureNotice e))) := by
  rw [perform_run_eq, h]

theorem run_eq_error {e : Failure}
    (h : (Install.run env config options).perform m = (.error e, m')) :
    ∃ m₁, (Install.perform env config options).perform m = (.error e, m₁) ∧
      m' = m₁.record (.told (failureNotice e)) := by
  rw [perform_run_eq] at h
  cases hp : (Install.perform env config options).perform m with
  | mk r m₁ =>
    rw [hp] at h
    cases r with
    | ok delay => cases h
    | error e' =>
      cases h
      exact ⟨m₁, rfl, rfl⟩

theorem marked_iff_entersTeardown {e : Failure} {m₁ : Machine}
    (h : (Install.perform env config options).perform m = (.error e, m₁)) :
    e.isUntouched = false ↔ EntersTeardown env config options m := by
  constructor
  · intro hmarked
    apply Classical.byContradiction
    intro hstays
    obtain ⟨e', m₂, as, herror, hunmarked, -⟩ := asks_of_not_entersTeardown hstays
    rw [h] at herror
    cases herror
    rw [hunmarked] at hmarked
    cases hmarked
  · intro henters
    exact marked_of_entersTeardown henters e (by rw [h])

/-- A failure of an installation has a mark if and only if the installation came to the teardown, and
it is the last notice. An installation that does not come there fails, has asked for nothing but the
disks and perhaps the target's table, and leaves the machine alone; one that finds an intact table
and is not forced does not come there. -/
theorem run_boundary {r : Except Failure (Option Nat)}
    (h : (Install.run env config options).perform m = (r, m')) :
    (∀ e, r = .error e → (e.isUntouched = false ↔ EntersTeardown env config options m) ∧
      m'.notices.getLast? = some (failureNotice e)) ∧
    (¬ EntersTeardown env config options m → (∃ e, r = .error e) ∧ ∃ as, LeftAlone env m m' as ∧
      RunsOnly env config options m (ran env as)) ∧
    ∀ plan m₁, (scout env config options).perform m = (.ok plan, m₁) →
      Attempt.tableState? env ⟨m₁, ⟨"sgdisk", ["-v", plan.target.kernelName]⟩⟩ = some .present →
      options.forceInstall = false → ¬ EntersTeardown env config options m ∧
        r = .error (.existingPartitionTable plan.target.kernelName) := by
  refine ⟨?_, ?_, ?_⟩
  · rintro e rfl
    obtain ⟨m₁, hp, rfl⟩ := run_eq_error h
    refine ⟨marked_iff_entersTeardown hp, ?_⟩
    rw [Machine.notices_told, List.getLast?_concat]
  · intro hstays
    obtain ⟨e, m₁, as, hp, -, hcourse, honly⟩ := asks_of_not_entersTeardown hstays
    rw [run_of_error hp] at h
    cases h
    have hwhole := hcourse.append (.quiet (.told (failureNotice e)) (.refl _))
    rw [List.append_nil] at hwhole
    exact ⟨⟨e, rfl⟩, as, hwhole.leftAlone, honly⟩
  · intro plan m₁ hscout hintact hforce
    obtain ⟨m₂, hsurvey⟩ := survey_eq_ok_iff.2 ⟨m₁, hscout, hintact⟩
    rw [run_of_error (perform_of_refused hsurvey hforce)] at h
    cases h
    exact ⟨not_entersTeardown_of_refused hsurvey hforce, rfl⟩

/-! ### An intact table -/

def sampleListing : String :=
  "\x7b\"blockdevices\":[\x7b\"kname\":\"/dev/vda\",\"id-link\":\"a\",\"size\":1\x7d," ++
    "\x7b\"kname\":\"/dev/vdb\",\"id-link\":\"b\",\"size\":99999999999\x7d]\x7d"

/-- A machine that runs from one of two disks. The other one has an intact table. -/
def sampleEnvironment : Environment :=
  Script.environment {
    registry := fun _ => .sample
    answers := [(⟨"lsblk", ["-v"]⟩, ⟨some 0, sampleListing, ""⟩)] } "/usr/bin/strata"

def sampleMachine : Machine := ⟨⟨[(["boot"], .directory)], []⟩, [], []⟩

theorem run_sample : ((Install.run sampleEnvironment {} {}).perform sampleMachine).1 =
    .error (.existingPartitionTable "/dev/vdb") :=
  Action.eq_error_of_failure? (by decide +kernel)

theorem run_boundary_sample : ∃ m',
    (Install.run sampleEnvironment {} {}).perform sampleMachine =
      (.error (.existingPartitionTable "/dev/vdb"), m') ∧
    ¬ EntersTeardown sampleEnvironment {} {} sampleMachine ∧
    ∃ as, LeftAlone sampleEnvironment sampleMachine m' as ∧
      RunsOnly sampleEnvironment {} {} sampleMachine (ran sampleEnvironment as) := by
  cases hrun : (Install.run sampleEnvironment {} {}).perform sampleMachine with
  | mk r m' =>
    obtain rfl : r = .error (.existingPartitionTable "/dev/vdb") := by rw [← run_sample, hrun]
    obtain ⟨hmark, halone, -⟩ := run_boundary hrun
    have hstays : ¬ EntersTeardown sampleEnvironment {} {} sampleMachine := by
      rw [← (hmark _ rfl).1]
      simp [Failure.isUntouched]
    exact ⟨m', rfl, hstays, (halone hstays).2⟩

end Install

end Groundwork
