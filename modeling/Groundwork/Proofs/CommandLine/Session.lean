import Mathlib.Data.List.Forall2
import Groundwork.CommandLine
import Groundwork.Proofs.Action
import Groundwork.Proofs.Bytes
import Groundwork.Proofs.Text

/-! What a step of a program comes to on a machine: one equation for each step, up to the question
that comes before whatever destroys data. -/
namespace Groundwork

variable {α β : Type} {m m' : Machine} {report : Report}

namespace Session

/-- What a step comes to on a machine, and the machine afterwards. -/
def outcome (s : Session α) (m : Machine) : Except Report α × Machine := (s.run).run m

@[simp] theorem outcome_print (text : String) (m : Machine) :
    (print text).outcome m = (.ok (), m.record (.printed text)) := rfl

@[simp] theorem outcome_files (m : Machine) : files.outcome m = (.ok m.files, m) := rfl

@[simp] theorem outcome_mk (r : Except Report α) (m : Machine) :
    outcome (ExceptT.mk (pure r)) m = (r, m) := rfl

theorem outcome_bind (s : Session α) (f : α → Session β) (m : Machine) :
    (s >>= f).outcome m = match s.outcome m with
      | (.ok x, m') => (f x).outcome m'
      | (.error report, m') => (.error report, m') := by
  simp only [outcome, ExceptT.run_bind, StateT.run_bind]
  cases StateT.run (ExceptT.run s) m with
  | mk r m' => cases r <;> rfl

theorem outcome_bind_of_ok {s : Session α} {x : α} (f : α → Session β)
    (h : s.outcome m = (.ok x, m')) : (s >>= f).outcome m = (f x).outcome m' := by
  rw [outcome_bind, h]

theorem outcome_bind_of_error {s : Session α} (f : α → Session β)
    (h : s.outcome m = (.error report, m')) : (s >>= f).outcome m = (.error report, m') := by
  rw [outcome_bind, h]

theorem outcome_perform (a : Action α) (m : Machine) : (perform a).outcome m =
    ((a.perform m).1.mapError Report.ofFailure, (a.perform m).2) := rfl

/-- What an operator is told of a workflow that has failed. -/
def explanation (e : Failure) : String :=
  if e.isUntouched then "No changes were made."
  else "The operation failed part way through; the machine may not boot."

theorem outcome_explained (a : Action α) (m : Machine) : (explained a).outcome m =
    match a.perform m with
    | (.ok x, m') => (.ok x, m')
    | (.error e, m') => (.error (Report.ofFailure e), m'.record (.complained (explanation e))) := by
  have hattempt : (perform (Action.attempt a)).outcome m = (.ok (a.perform m).1, (a.perform m).2) :=
    rfl
  rw [explained, outcome_bind_of_ok _ hattempt]
  rcases a.perform m with ⟨_ | _, m'⟩ <;> rfl

theorem outcome_explained_of_ok {a : Action α} {x : α} (h : a.perform m = (.ok x, m')) :
    (explained a).outcome m = (.ok x, m') := by
  rw [outcome_explained, h]

end Session

namespace CommandLine

variable {env : Environment} {config : Config} {environment : Config → Environment}
  {arguments : List String} {input : Input} {call : Invocation} {t : FileTree} {seeds : List String}
  {path : Option String} {request : ResetRequest}

theorem run_conclude (s : Session Unit) (m : Machine) : (conclude s).run m =
    match s.outcome m with
    | (.ok _, m') => (0, m')
    | (.error report, m') => (1, m'.record (.complained report.text)) := by
  unfold conclude Session.outcome
  rw [StateT.run_bind]
  rcases StateT.run (ExceptT.run s) m with ⟨_ | _, m'⟩ <;> rfl

theorem run_conclude_congr {s s' : Session Unit} (h : s.outcome m = s'.outcome m') :
    (conclude s).run m = (conclude s').run m' := by
  rw [run_conclude, run_conclude, h]

/-! ### The question -/

/-- Whether an input is an explicit yes. -/
def agrees (input : Input) : Bool := input.firstLine.toOption.any fun line => Text.trim line == "yes"

/-- Whether the first line of an input is a yes, with nothing but blanks around it. -/
def SaysYes (input : Input) : Prop :=
  ∃ front back : List Char, (∀ c ∈ front ++ back, Text.isBlank c = true) ∧
    input.bytes.toList.takeWhile (· ≠ 0x0A) =
      (String.ofList (front ++ "yes".toList ++ back)).toUTF8.toList

theorem firstLine_eq_ok_iff {line : String} : input.firstLine = .ok line ↔
    input.bytes.toList.takeWhile (· ≠ 0x0A) = line.toUTF8.toList := by
  rw [Input.firstLine]
  constructor
  · intro h
    split at h
    · next s hs =>
      cases h
      rw [Bytes.toUTF8_of_fromUTF8? hs]
      exact (Bytes.toList_eq_data ⟨List.toArray _⟩).symm
    · cases h
  · intro h
    rw [h, show (⟨line.toUTF8.toList.toArray⟩ : ByteArray) = line.toUTF8 from
      Bytes.toList_inj.1 (by rw [Bytes.toList_eq_data]), Bytes.fromUTF8?_toUTF8]

theorem agrees_iff : agrees input = true ↔ SaysYes input := by
  have hsolid : ("yes".toList.all fun c => !Text.isBlank c) = true := by decide
  have hyes (line : String) : (Text.trim line == "yes") = true ↔ ∃ front back : List Char,
      (∀ c ∈ front ++ back, Text.isBlank c = true) ∧
        line = String.ofList (front ++ "yes".toList ++ back) := by
    rw [beq_iff_eq, Text.trim, ← String.toList_inj, String.toList_ofList,
      Text.trimChars_eq_iff fun c hc => by simpa using List.all_eq_true.1 hsolid c hc]
    simp only [← String.toList_inj, String.toList_ofList]
  have hline : agrees input = true ↔
      ∃ line, input.firstLine = .ok line ∧ (Text.trim line == "yes") = true := by
    unfold agrees
    cases input.firstLine <;> simp [Except.toOption]
  rw [hline]
  constructor
  · rintro ⟨line, hfirst, htrim⟩
    obtain ⟨front, back, hblank, rfl⟩ := (hyes line).1 htrim
    exact ⟨front, back, hblank, firstLine_eq_ok_iff.1 hfirst⟩
  · rintro ⟨front, back, hblank, hbytes⟩
    exact ⟨_, firstLine_eq_ok_iff.2 hbytes, (hyes _).2 ⟨front, back, hblank, rfl⟩⟩

theorem outcome_confirm (input : Input) (m : Machine) : (confirm input).outcome m =
    (match input.firstLine with
      | .ok line => .ok (Text.trim line == "yes")
      | .error e => .error (Report.ofSystemError e), m.record (.printed prompt)) := by
  rw [confirm, Session.outcome_bind_of_ok _ (Session.outcome_print prompt m)]
  cases input.firstLine <;> rfl

theorem outcome_withConsent_of_agrees (h : agrees input = true) (cancelled : String)
    (work : Session Unit) (m : Machine) :
    (withConsent input cancelled work).outcome m = work.outcome (m.record (.printed prompt)) := by
  have hconfirm := outcome_confirm input m
  unfold agrees at h
  cases hline : input.firstLine with
  | error e => simp [hline, Except.toOption] at h
  | ok line =>
    rw [hline] at h hconfirm
    have hyes : (Text.trim line == "yes") = true := h
    simp only [hyes] at hconfirm
    rw [withConsent, Session.outcome_bind_of_ok _ hconfirm]
    rfl

/-- Without an explicit yes the work is left out. -/
theorem outcome_withConsent_of_refuses (h : agrees input = false) (cancelled : String)
    (work : Session Unit) (m : Machine) : ∃ r m', (withConsent input cancelled work).outcome m = (r, m') ∧
      (m' = m.record (.printed prompt) ∨
        m' = (m.record (.printed prompt)).record (.printed cancelled)) := by
  have hconfirm := outcome_confirm input m
  unfold agrees at h
  cases hline : input.firstLine with
  | error e =>
    rw [hline] at hconfirm
    exact ⟨_, _, Session.outcome_bind_of_error _ hconfirm, .inl rfl⟩
  | ok line =>
    rw [hline] at h hconfirm
    have hno : (Text.trim line == "yes") = false := h
    simp only [hno] at hconfirm
    exact ⟨_, _, Session.outcome_bind_of_ok _ hconfirm, .inr rfl⟩

/-! ### The request -/

/-- A seed that is given as a name and a file, with the payload that the file holds. -/
def Gives (t : FileTree) (text : String) (seed : String × ByteArray) : Prop :=
  ∃ file, text.toList = seed.1.toList ++ '=' :: file ∧ '=' ∉ seed.1.toList ∧
    t.read (String.ofList file) = .ok seed.2

/-- What an operator asks a reset for: the request in a file, or one for the seeds that are given. -/
inductive Requested (t : FileTree) (seeds : List String) : Option String → ResetRequest → Prop
  | inFile {path : String} {content : ByteArray} {request : ResetRequest}
    (hread : t.read path = .ok content) (h : ResetRequest.ofJson content = .ok request) :
    Requested t seeds (some path) request
  | ofSeeds {given : List (String × ByteArray)} (h : List.Forall₂ (Gives t) seeds given) :
    Requested t seeds none ⟨Dict.ofList given, false, false⟩

theorem readSeed_eq_ok_iff {text : String} {seed : String × ByteArray} :
    readSeed t text = .ok seed ↔ Gives t text seed := by
  obtain ⟨name, payload⟩ := seed
  unfold readSeed Gives
  cases hcut : Text.cutFirst '=' text.toList with
  | none =>
    refine iff_of_false nofun ?_
    rintro ⟨file, htext, hname, -⟩
    cases hcut.symm.trans (Text.cutFirst_eq_some_iff.2 ⟨htext, hname⟩)
  | some cut =>
    obtain ⟨front, back⟩ := cut
    obtain ⟨htext, hfront⟩ := Text.cutFirst_eq_some_iff.1 hcut
    dsimp only
    constructor
    · intro h
      cases hread : t.read (String.ofList back) with
      | error e => 
        rw [hread] at h
        cases h
      | ok content =>
        rw [hread] at h
        cases h
        exact ⟨back, by rw [String.toList_ofList, htext], by rwa [String.toList_ofList], hread⟩
    · rintro ⟨file, htext', hname, hread⟩
      have hsame := hcut.symm.trans (Text.cutFirst_eq_some_iff.2 ⟨htext', hname⟩)
      cases hsame
      rw [hread, String.ofList_toList]

theorem mapM_readSeed_eq_ok_iff {given : List (String × ByteArray)} :
    seeds.mapM (readSeed t) = .ok given ↔ List.Forall₂ (Gives t) seeds given := by
  induction seeds generalizing given with
  | nil =>
    rw [List.forall₂_nil_left_iff]
    exact ⟨fun h => by cases h; rfl, fun h => h ▸ rfl⟩
  | cons text seeds ih =>
    rw [List.mapM_cons, List.forall₂_cons_left_iff]
    cases hseed : readSeed t text with
    | error report =>
      refine iff_of_false nofun ?_
      rintro ⟨seed, given, hgives, -⟩
      cases hseed.symm.trans (readSeed_eq_ok_iff.2 hgives)
    | ok seed =>
      cases hseeds : seeds.mapM (readSeed t) with
      | error report =>
        refine iff_of_false nofun ?_
        rintro ⟨_, given, -, hall, -⟩
        cases hseeds.symm.trans (ih.2 hall)
      | ok rest =>
        constructor
        · intro h
          cases h
          exact ⟨seed, rest, readSeed_eq_ok_iff.1 hseed, ih.1 hseeds, rfl⟩
        · rintro ⟨seed', rest', hgives, hall, rfl⟩
          cases hseed.symm.trans (readSeed_eq_ok_iff.2 hgives)
          cases hseeds.symm.trans (ih.2 hall)
          rfl

theorem readRequest_eq_ok_iff :
    readRequest t seeds path = .ok request ↔ Requested t seeds path request := by
  cases path with
  | some path =>
    rw [readRequest]
    cases hread : t.read path with
    | error e =>
      refine iff_of_false nofun ?_
      rintro (⟨h, -⟩ | _)
      cases hread.symm.trans h
    | ok content =>
      constructor
      · intro h
        cases hjson : ResetRequest.ofJson content with
        | error e =>
          simp [hjson, Except.mapError, bind, Except.bind] at h
        | ok r =>
          simp only [hjson, Except.mapError, bind, Except.bind, Except.ok.injEq] at h
          exact h ▸ .inFile hread hjson
      · rintro (⟨h, hjson⟩ | _)
        cases hread.symm.trans h
        simp only [hjson, Except.mapError, bind, Except.bind]
  | none =>
    rw [readRequest]
    constructor
    · intro h
      cases hgiven : seeds.mapM (readSeed t) with
      | error report =>
        rw [hgiven] at h
        cases h
      | ok given =>
        rw [hgiven] at h
        cases h
        exact .ofSeeds (mapM_readSeed_eq_ok_iff.1 hgiven)
    · rintro (_ | hgiven)
      rw [mapM_readSeed_eq_ok_iff.2 hgiven]
      rfl

/-! ### The manager -/

theorem outcome_loadConfig (path : String) (m : Machine) : (loadConfig path).outcome m =
    ((Config.load path (m.files.readText path)).mapError fun e =>
      (Report.ofFailure e).within s!"loading {path}", m) := rfl

theorem run_manage_of_unloaded {e : Failure} (hparse : Invocation.parse? arguments = some call)
    (hload : Config.load call.config (m.files.readText call.config) = .error e) :
    (manage environment arguments input).run m = (1, m.record (.complained
      ((Report.ofFailure e).within s!"loading {call.config}").text)) := by
  unfold manage
  rw [hparse]
  have houtcome := outcome_loadConfig call.config m
  rw [hload] at houtcome
  simp only [run_conclude, Session.outcome_bind_of_error _ houtcome]

theorem run_manage (hparse : Invocation.parse? arguments = some call)
    (hload : Config.load call.config (m.files.readText call.config) = .ok config) :
    (manage environment arguments input).run m =
      (conclude (execute (environment config) config input call.order)).run m := by
  unfold manage
  rw [hparse]
  refine run_conclude_congr (Session.outcome_bind_of_ok _ ?_)
  rw [outcome_loadConfig, hload]
  rfl

/-! ### The daemon -/

theorem run_serve {start : DaemonInvocation}
    (hparse : DaemonInvocation.parse? arguments = some start)
    (hload : Config.load start.config (m.files.readText start.config) = .ok config) :
    (serve environment arguments).run m =
      (conclude (daemon (environment config) config start.once)).run m := by
  unfold serve
  rw [hparse]
  refine run_conclude_congr (Session.outcome_bind_of_ok _ ?_)
  rw [outcome_loadConfig, hload]
  rfl

end CommandLine

end Groundwork
