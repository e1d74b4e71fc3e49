import Groundwork.Machine.Scripted
import Groundwork.Pool.Health
import Groundwork.Proofs.Bytes
import Groundwork.Proofs.Course
import Groundwork.Proofs.Json.Decode
import Groundwork.Proofs.Registry
import Groundwork.Proofs.Text

/-! What a poll reports. Each pool that is listed and watched is asked about once, in the order of the
listing, and is reported if the answer shows it. What becomes of one pool makes no difference to another. -/
namespace Groundwork

open Json (Raw bind_eq_ok map_eq_ok mapError_eq_ok)

/-- Whether the answers of all tools depend on the commands alone. -/
def Environment.AnswersBy (env : Environment) (answers : Command → Option Output) : Prop :=
  ∀ m c, (env.tool m c).map (·.1) = answers c

namespace Pool

variable {env env' : Environment} {watch : PoolWatch} {m m' : Machine} {listed text name : String}
  {p : Pool}

/-! ### The listing -/

/-- Whether a listed name is one of a pool that is to be reported. -/
def Watched (watch : PoolWatch) (name : String) : Prop :=
  name ≠ "" ∧ (watch.pools = [] ∨ name ∈ watch.pools)

instance (watch : PoolWatch) : DecidablePred (Watched watch) :=
  fun _ => inferInstanceAs (Decidable (_ ∧ _))

theorem filter_watched (names : List String) :
    (names.filter fun name => name ≠ "" && watch.wants name) = names.filter (Watched watch) := by
  refine List.filter_congr fun name _ => ?_
  rw [Bool.eq_iff_iff, decide_eq_true_iff]
  simp [Watched, PoolWatch.wants]

/-- Nothing but the trimmed lines counts, and of them only those that are not empty. -/
theorem namesIn_of_lines {pieces : List (List Char)} (hne : pieces ≠ [])
    (hunbroken : ∀ piece ∈ pieces, '\n' ∉ piece) (h : listed.toList = ['\n'].intercalate pieces) :
    namesIn watch listed =
      (pieces.map fun piece => String.ofList (Text.trimChars piece)).filter (Watched watch) := by
  have hlines (whole : List (List Char)) :
      ((whole.map Text.dropReturn).map String.ofList).map Text.trim =
        whole.map fun piece => String.ofList (Text.trimChars piece) := by
    simp only [List.map_map]
    refine List.map_congr_left fun piece _ => ?_
    simp only [Function.comp, Text.trim, String.toList_ofList, Text.trimChars_dropReturn]
  rw [namesIn, filter_watched, Text.lines, Text.lineChars, h, Text.split_intercalate hne hunbroken,
    hlines]
  split
  · next hlast =>
    obtain ⟨front, rfl⟩ := List.getLast?_eq_some_iff.1 hlast
    rw [List.dropLast_concat, List.map_append, List.filter_append]
    have hempty : ¬ Watched watch (String.ofList (Text.trimChars [])) := fun hw => hw.1 rfl
    simp [hempty]
  · rfl

/-! ### One pool -/

/-- Whether a text is a report that holds some pools by their keys. -/
def Holds (text : String) (pools : Dict Pool) : Prop :=
  ∃ r, Raw.ofText text = .ok r ∧ poolsOfRaw r = .ok pools

theorem ofReport_eq_ok {ps : List Pool} :
    ofReport text = .ok ps ↔ ∃ pools, Holds text pools ∧ pools.entries.map (·.2) = ps := by
  have hreport (r : Raw) : reportOfRaw r = .ok ps ↔
      ∃ pools, poolsOfRaw r = .ok pools ∧ pools.entries.map (·.2) = ps :=
    bind_eq_ok.trans (exists_congr fun _ => and_congr_right fun _ => ⟨Except.ok.inj, congrArg _⟩)
  rw [ofReport, mapError_eq_ok]
  refine bind_eq_ok.trans ?_
  simp only [hreport, Holds]
  constructor
  · rintro ⟨r, hr, pools, hpools, hps⟩
    exact ⟨pools, ⟨r, hr, hpools⟩, hps⟩
  · rintro ⟨pools, ⟨r, hr, hpools⟩, hps⟩
    exact ⟨r, hr, pools, hpools, hps⟩

/-- Whether a pool is the first of its name, by the keys of the report. -/
theorem find?_entries_iff {pools : Dict Pool} :
    (pools.entries.map (·.2)).find? (·.name = name) = some p ↔ p.name = name ∧
      ∃ front key back, pools.entries = front ++ (key, p) :: back ∧ ∀ e ∈ front, e.2.name ≠ name := by
  rw [List.find?_map, Option.map_eq_some_iff]
  constructor
  · rintro ⟨⟨key, p⟩, hfind, rfl⟩
    obtain ⟨hname, front, back, hentries, hno⟩ := List.find?_eq_some_iff_append.1 hfind
    exact ⟨by simpa using hname, front, key, back, hentries, by simpa using hno⟩
  · rintro ⟨hname, front, key, back, hentries, hno⟩
    refine ⟨(key, p), List.find?_eq_some_iff_append.2 ⟨?_, front, back, hentries, ?_⟩, rfl⟩
    · simpa using hname
    · simpa using hno

/-- Whether an answer shows a pool: of the entries of the report that have its name, the snapshot is the
first by key. -/
structure Shows (env : Environment) (a : Attempt) (name : String) (p : Pool) : Prop where
  first : ∃ o pools, a.checked env = .ok o ∧ Holds o.stdout pools ∧
    ∃ front key back, pools.entries = front ++ (key, p) :: back ∧ ∀ e ∈ front, e.2.name ≠ name
  name_eq : p.name = name

/-- The question about a pool, and the machine on which it is asked. -/
structure Visit where
  pool : String
  machine : Machine

namespace Visit

variable {v : Visit}

def attempt (v : Visit) : Attempt :=
  ⟨v.machine, ⟨"zpool", ["status", "-j", "--json-int", v.pool]⟩⟩

theorem attempt_eq (name : String) (m : Machine) : attempt ⟨name, m⟩ = ⟨m, statusQuery name⟩ := rfl

/-- What the answer says about the pool. -/
def status (env : Environment) (v : Visit) : Except Failure (Option Pool) :=
  (v.attempt.checked env).bind fun o => (ofReport o.stdout).map fun ps => ps.find? (·.name = v.pool)

/-- What is reported of the pool, if anything is. -/
def snapshot? (env : Environment) (v : Visit) : Option Pool :=
  match v.status env with
  | .ok found => found
  | .error _ => none

theorem status_eq_some_iff : v.status env = .ok (some p) ↔ Shows env v.attempt v.pool p := by
  have hstatus : v.status env = .ok (some p) ↔ ∃ o, v.attempt.checked env = .ok o ∧
      ∃ ps, ofReport o.stdout = .ok ps ∧ ps.find? (·.name = v.pool) = some p :=
    bind_eq_ok.trans (exists_congr fun _ => and_congr_right fun _ => map_eq_ok)
  rw [hstatus]
  constructor
  · rintro ⟨o, hchecked, ps, hreport, hfind⟩
    obtain ⟨pools, hpools, rfl⟩ := ofReport_eq_ok.1 hreport
    obtain ⟨hname, hfirst⟩ := find?_entries_iff.1 hfind
    exact ⟨⟨o, pools, hchecked, hpools, hfirst⟩, hname⟩
  · rintro ⟨⟨o, pools, hchecked, hpools, hfirst⟩, hname⟩
    exact ⟨o, hchecked, _, ofReport_eq_ok.2 ⟨pools, hpools, rfl⟩, find?_entries_iff.2 ⟨hname, hfirst⟩⟩

theorem snapshot?_eq_some_iff : v.snapshot? env = some p ↔ Shows env v.attempt v.pool p := by
  rw [← status_eq_some_iff, snapshot?]
  cases v.status env <;> simp

end Visit

theorem perform_health (env : Environment) (name : String) (m : Machine) :
    (health env name).perform m =
      (Visit.status env ⟨name, m⟩, (Visit.attempt ⟨name, m⟩).after env) := by
  unfold health Visit.status
  rw [Action.perform_bind, Action.perform_runChecked, ← Visit.attempt_eq]
  cases (Visit.attempt ⟨name, m⟩).checked env with
  | error e => rfl
  | ok o => exact Action.perform_bind_pure _ _ _

/-- A pool is asked about once; a warning may follow, and nothing else. -/
theorem perform_check (env : Environment) (name : String) (m : Machine) : ∃ m',
    (check env name).perform m = (.ok (Visit.snapshot? env ⟨name, m⟩), m') ∧
      Course env Machine.Reports m [Visit.attempt ⟨name, m⟩] m' := by
  unfold check Visit.snapshot?
  have hasked : Course env Machine.Reports m [Visit.attempt ⟨name, m⟩]
      ((Visit.attempt ⟨name, m⟩).after env) := .ask _ (.refl _)
  rw [Action.perform_bind_of_ok _ (Action.perform_attempt _ m), perform_health]
  cases Visit.status env ⟨name, m⟩ with
  | error e => exact ⟨_, rfl, hasked.append (.quiet (.logged _ _) (.refl _))⟩
  | ok found =>
    cases found with
    | some p => exact ⟨_, rfl, hasked⟩
    | none => exact ⟨_, rfl, hasked.append (.quiet (.logged _ _) (.refl _))⟩

/-! ### All pools -/

/-- Induction on the names: each visit finds the machine as the one before it left it. -/
theorem visits_mapM (env : Environment) (names : List String) (m : Machine) :
    ∃ (visits : List Visit) (m' : Machine),
      (names.mapM (check env)).perform m = (.ok (visits.map (Visit.snapshot? env)), m') ∧
      visits.map (·.pool) = names ∧
      Course env Machine.Reports m (visits.map Visit.attempt) m' := by
  induction names generalizing m with
  | nil => exact ⟨[], m, rfl, rfl, .refl m⟩
  | cons name names ih =>
    obtain ⟨m₁, hcheck, hfirst⟩ := perform_check env name m
    obtain ⟨visits, m', hrest, hnames, hcourse⟩ := ih m₁
    refine ⟨⟨name, m⟩ :: visits, m', ?_, by rw [List.map_cons, hnames], hfirst.append hcourse⟩
    rw [List.mapM_cons, Action.perform_bind_of_ok _ hcheck, Action.perform_bind_of_ok _ hrest]
    rfl

/-- The question for the names of all pools. -/
def listQuery (m : Machine) : Attempt := ⟨m, ⟨"zpool", ["list", "-H", "-o", "name"]⟩⟩

theorem perform_names (env : Environment) (watch : PoolWatch) (m : Machine) :
    (names env watch).perform m =
      (((listQuery m).checked env).map fun o => namesIn watch o.stdout, (listQuery m).after env) := by
  unfold names
  rw [Action.perform_bind_pure, Action.perform_runChecked]
  rfl

theorem poll_of_error {e : Failure} (h : (listQuery m).checked env = .error e) :
    (poll env watch).perform m = (.error e, (listQuery m).after env) := by
  have hnames := perform_names env watch m
  rw [h] at hnames
  exact Action.perform_bind_of_error _ hnames

theorem poll_of_listed (watch : PoolWatch) {o : Output} (h : (listQuery m).checked env = .ok o) :
    ∃ (visits : List Visit) (m' : Machine),
      (poll env watch).perform m = (.ok (visits.filterMap (Visit.snapshot? env)), m') ∧
      visits.map (·.pool) = namesIn watch o.stdout ∧
      Course env Machine.Reports m (listQuery m :: visits.map Visit.attempt) m' := by
  have hnames := perform_names env watch m
  rw [h] at hnames
  obtain ⟨visits, m', hvisits, hpools, hcourse⟩ :=
    visits_mapM env (namesIn watch o.stdout) ((listQuery m).after env)
  refine ⟨visits, m', ?_, hpools, .ask _ hcourse⟩
  unfold poll
  rw [Action.perform_bind_of_ok _ hnames, Action.perform_bind_of_ok _ hvisits, Action.perform_pure,
    List.filterMap_map]
  rfl

/-! ### One pool and another -/

theorem statusQuery_inj {name other : String} (h : statusQuery name = statusQuery other) :
    name = other := by
  cases h
  rfl

/-- What is reported of a pool where the answers depend on the commands alone. -/
theorem snapshot?_congr {answers answers' : Command → Option Output}
    (henv : env.AnswersBy answers) (henv' : env'.AnswersBy answers') {v v' : Visit}
    (hpool : v.pool = v'.pool) (h : answers (statusQuery v.pool) = answers' (statusQuery v.pool)) :
    v.snapshot? env = v'.snapshot? env' := by
  have hchecked : v.attempt.checked env = v'.attempt.checked env' := by
    obtain ⟨name, m⟩ := v
    obtain ⟨name', m'⟩ := v'
    obtain rfl : name = name' := hpool
    refine Attempt.checked_congr rfl ?_
    rw [henv, henv', Visit.attempt_eq, Visit.attempt_eq, h]
  rw [Visit.snapshot?, Visit.snapshot?, Visit.status, Visit.status, hchecked, hpool]

/-- A pool is reported as if no other one had been asked about. -/
theorem filterMap_snapshot? {answers : Command → Option Output} (henv : env.AnswersBy answers)
    (visits : List Visit) (m : Machine) : visits.filterMap (Visit.snapshot? env) =
      (visits.map (·.pool)).filterMap fun name => Visit.snapshot? env ⟨name, m⟩ := by
  rw [List.filterMap_map]
  exact List.filterMap_congr fun v _ => snapshot?_congr henv henv rfl rfl

theorem reported_of_answersBy {answers : Command → Option Output} (henv : env.AnswersBy answers)
    {report : List Pool} (h : ((poll env watch).perform m).1 = .ok report) :
    ∃ o, (listQuery m).checked env = .ok o ∧
      report = (namesIn watch o.stdout).filterMap fun name => Visit.snapshot? env ⟨name, m⟩ := by
  cases hlist : (listQuery m).checked env with
  | error e =>
    rw [poll_of_error hlist] at h
    cases h
  | ok o =>
    obtain ⟨visits, m', hpoll, hpools, -⟩ := poll_of_listed watch hlist
    rw [hpoll] at h
    cases h
    exact ⟨o, rfl, by rw [filterMap_snapshot? henv visits m, hpools]⟩

/-- The reports of two environments that differ in what they say about one pool. -/
theorem filter_report_congr {answers answers' : Command → Option Output}
    (henv : env.AnswersBy answers) (henv' : env'.AnswersBy answers')
    (hsame : ∀ c, c ≠ statusQuery name → answers c = answers' c) {report report' : List Pool}
    (h : ((poll env watch).perform m).1 = .ok report)
    (h' : ((poll env' watch).perform m').1 = .ok report') :
    report.filter (·.name ≠ name) = report'.filter (·.name ≠ name) := by
  obtain ⟨o, ho, rfl⟩ := reported_of_answersBy henv h
  obtain ⟨o', ho', rfl⟩ := reported_of_answersBy henv' h'
  have hlisting : (listQuery m).checked env = (listQuery m').checked env' := by
    refine Attempt.checked_congr rfl ?_
    rw [henv, henv']
    exact hsame listing (by simp [listing, statusQuery])
  rw [ho, ho'] at hlisting
  cases hlisting
  rw [List.filter_filterMap, List.filter_filterMap]
  refine List.filterMap_congr fun other _ => ?_
  by_cases hother : other = name
  · -- what is said about the pool itself is left out on both sides
    have hnone (env : Environment) (m : Machine) :
        (Visit.snapshot? env ⟨name, m⟩).filter (fun p => p.name ≠ name) = none := by
      rw [Option.filter_eq_none_iff]
      intro p hp
      simpa using (Visit.snapshot?_eq_some_iff.1 hp).name_eq
    rw [hother, hnone, hnone]
  · have hquery : statusQuery other ≠ statusQuery name := fun heq => hother (statusQuery_inj heq)
    rw [@snapshot?_congr _ _ _ _ henv henv' ⟨other, m⟩ ⟨other, m'⟩ rfl (hsame _ hquery)]

/-- A poll in full. It fails only with the listing. Otherwise each line that names a watched pool leads to
one question, in the order of the lines; the report holds the snapshots that the answers show, in this
order; and what is said about one pool changes nothing about the others. -/
theorem poll_reports (env : Environment) (watch : PoolWatch) (m : Machine) :
    (∀ e, (listQuery m).checked env = .error e →
      (poll env watch).perform m = (.error e, (listQuery m).after env)) ∧
    (∀ o, (listQuery m).checked env = .ok o → ∃ (visits : List Visit) (m' : Machine),
      (poll env watch).perform m = (.ok (visits.filterMap (Visit.snapshot? env)), m') ∧
      Course env Machine.Reports m (listQuery m :: visits.map Visit.attempt) m' ∧
      LeftAlone env m m' (listQuery m :: visits.map Visit.attempt) ∧
      (∀ lines : List (List Char), lines ≠ [] → (∀ line ∈ lines, '\n' ∉ line) →
        o.stdout.toList = ['\n'].intercalate lines → visits.map (·.pool) =
          (lines.map fun line => String.ofList (Text.trimChars line)).filter (Watched watch)) ∧
      ∀ v ∈ visits, ∀ p, v.snapshot? env = some p ↔ Shows env v.attempt v.pool p) ∧
    ∀ (env' : Environment) (answers answers' : Command → Option Output) (m' : Machine)
      (name : String) (report report' : List Pool), env.AnswersBy answers → env'.AnswersBy answers' →
      (∀ c, c ≠ ⟨"zpool", ["status", "-j", "--json-int", name]⟩ → answers c = answers' c) →
      ((poll env watch).perform m).1 = .ok report → ((poll env' watch).perform m').1 = .ok report' →
      report.filter (·.name ≠ name) = report'.filter (·.name ≠ name) := by
  refine ⟨fun e => poll_of_error, fun o hlist => ?_, ?_⟩
  · obtain ⟨visits, m', hpoll, hpools, hcourse⟩ := poll_of_listed watch hlist
    refine ⟨visits, m', hpoll, hcourse, hcourse.leftAlone, ?_, fun v _ p => v.snapshot?_eq_some_iff⟩
    intro lines hne hunbroken hlines
    rw [hpools, namesIn_of_lines hne hunbroken hlines]
  · intro env' answers answers' m' name report report' henv henv' hsame h h'
    exact filter_report_congr henv henv' hsame h h'

/-! ### A pool that cannot be read -/

def localStatus : String :=
  "\x7b\"pools\":\x7b\"local\":\x7b\"name\":\"local\",\"state\":\"ONLINE\",\"scan_stats\":" ++
    "\x7b\"state\":\"SCANNING\",\"examined\":\"7\",\"to_examine\":9\x7d\x7d\x7d\x7d"

def localPool : Pool := ⟨"local", "ONLINE", none, some ⟨.scanning, 7, 9⟩⟩

/-- The answers of the tools, one of which is given. A third pool is not watched. -/
def brokenAnswer (answer : Output) (c : Command) : Output :=
  if c = listing then ⟨some 0, "broken\n\n local \r\nscratch", ""⟩
  else if c = statusQuery "local" then ⟨some 0, localStatus, ""⟩
  else if c = statusQuery "broken" then answer
  else .silent

def brokenEnvironment (answer : Output) : Environment :=
  { Script.environment { registry := fun _ => .sample } "/usr/bin/strata-daemon" with
    tool := fun m c => some (brokenAnswer answer c, m.files) }

def pickyWatch : PoolWatch := { pools := ["local", "broken"] }

def refusal : Output := ⟨some 1, "", "cannot open 'broken': no such pool"⟩

def idleMachine : Machine := ⟨.empty, [], []⟩

theorem ofReport_localStatus : ofReport localStatus = .ok [localPool] := by
  rw [ofReport, Raw.ofText, Bytes.toList_eq_data]
  exact Action.eq_ok_of_toOption (by decide +kernel)

theorem answersBy_brokenEnvironment (answer : Output) :
    (brokenEnvironment answer).AnswersBy fun c => some (brokenAnswer answer c) := fun _ _ => rfl

theorem brokenAnswer_congr {answer answer' : Output} {c : Command} (hc : c ≠ statusQuery "broken") :
    brokenAnswer answer c = brokenAnswer answer' c := by
  unfold brokenAnswer
  rw [if_neg hc, if_neg hc]

theorem snapshot?_local (answer : Output) :
    Visit.snapshot? (brokenEnvironment answer) ⟨"local", idleMachine⟩ = some localPool := by
  have hstatus : Visit.status (brokenEnvironment answer) ⟨"local", idleMachine⟩ =
      .ok (some localPool) := by
    have hchecked : (Visit.attempt ⟨"local", idleMachine⟩).checked (brokenEnvironment answer) =
        .ok ⟨some 0, localStatus, ""⟩ := rfl
    rw [Visit.status, hchecked, Except.bind, ofReport_localStatus]
    rfl
  rw [Visit.snapshot?, hstatus]

theorem poll_reports_brokenEnvironment :
    (∃ (visits : List Visit) (m' : Machine),
      (poll (brokenEnvironment refusal) pickyWatch).perform idleMachine = (.ok [localPool], m') ∧
      visits.map (·.pool) = ["broken", "local"] ∧
      LeftAlone (brokenEnvironment refusal) idleMachine m'
        (listQuery idleMachine :: visits.map Visit.attempt)) ∧
    ∀ answer report,
      ((poll (brokenEnvironment answer) pickyWatch).perform idleMachine).1 = .ok report →
      report.filter (·.name ≠ "broken") = [localPool] := by
  obtain ⟨-, hlisted, hothers⟩ := poll_reports (brokenEnvironment refusal) pickyWatch idleMachine
  obtain ⟨visits, m', hpoll, -, halone, hlines, -⟩ := hlisted _ rfl
  have hpools : visits.map (·.pool) = ["broken", "local"] := by
    rw [hlines ["broken".toList, [], " local \r".toList, "scratch".toList] (by decide) (by decide)
      (by decide)]
    decide +kernel
  have hreport : visits.filterMap (Visit.snapshot? (brokenEnvironment refusal)) = [localPool] := by
    have hbroken : Visit.snapshot? (brokenEnvironment refusal) ⟨"broken", idleMachine⟩ = none := rfl
    rw [filterMap_snapshot? (answersBy_brokenEnvironment refusal) visits idleMachine, hpools]
    simp only [List.filterMap_cons, hbroken, snapshot?_local, List.filterMap_nil]
  rw [hreport] at hpoll
  refine ⟨⟨visits, m', hpoll, hpools, halone⟩, fun answer report hanswer => ?_⟩
  have hsame := hothers (brokenEnvironment answer) _ _ idleMachine "broken" [localPool] report
    (answersBy_brokenEnvironment refusal) (answersBy_brokenEnvironment answer)
    (fun c hc => congrArg some (brokenAnswer_congr hc)) (by rw [hpoll]) hanswer
  exact hsame.symm.trans (by decide +kernel)

end Pool

end Groundwork
