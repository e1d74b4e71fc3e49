import Groundwork.Pool.Status
import Groundwork.Proofs.Json.Counter
import Groundwork.Proofs.Json.Place

/-! Counters in reports of pools. What a report has for a counter of a scan counts as the number that it is,
however it is written, and a report with something else in its place is refused as a whole. -/
namespace Groundwork

open Json

namespace ScanStats

/-- The counters of a scan. -/
inductive Counter
  | examined
  | toExamine

/-- The name of the field. -/
def Counter.name : Counter → String
  | examined => "examined"
  | toExamine => "to_examine"

def Counter.put (n : Nat) (s : ScanStats) : Counter → ScanStats
  | examined => { s with examined := n }
  | toExamine => { s with toExamine := n }

end ScanStats

namespace Pool

variable {α : Type} {r : Raw} {n : Nat} {p : Pool} {v : Value}

/-! ### One counter in a report -/

/-- The fields of a scan, one of whose counters is open. What stands between them is looked at first. -/
theorem carries_stats {c : ScanStats.Counter} (gap : Fields.Gap c.name) (others : Except Error α) :
    Carries Raw.counter (fun r => do
        let function ← (gap.fill r).optional "function" Raw.text
        let _ ← others
        let state ← (gap.fill r).required "state" ScanState.ofRaw
        let examined ← (gap.fill r).required "examined" Raw.counter
        let toExamine ← (gap.fill r).required "to_examine" Raw.counter
        return (function, ScanStats.mk state examined toExamine))
      (fun put => ∃ function stats, put = fun n => (function, c.put n stats)) := by
  have hfunction (r : Raw) : (gap.fill r).optional "function" Raw.text =
      gap.rest.optional "function" Raw.text :=
    gap.optional_fill_of_ne r (by cases c <;> decide) _
  have hstate (r : Raw) : (gap.fill r).required "state" ScanState.ofRaw =
      gap.rest.required "state" ScanState.ofRaw :=
    gap.required_fill_of_ne r (by cases c <;> decide) _
  simp only [hfunction, hstate]
  refine .bind_left _ fun function _ => .bind_left _ fun _ _ => .bind_left _ fun state _ => ?_
  cases c with
  | examined =>
    have hopen (r : Raw) : (gap.fill r).required "examined" Raw.counter = r.counter :=
      gap.required_fill r _
    have hother (r : Raw) : (gap.fill r).required "to_examine" Raw.counter =
        gap.rest.required "to_examine" Raw.counter :=
      gap.required_fill_of_ne r (by decide) _
    simp only [hopen, hother]
    refine ((Carries.refl Raw.counter).bind_right _ fun examined toExamine =>
      (function, ScanStats.mk state examined toExamine)).mono ?_
    rintro _ ⟨_, toExamine, rfl, -, rfl⟩
    exact ⟨function, ⟨state, 0, toExamine⟩, rfl⟩
  | toExamine =>
    have hopen (r : Raw) : (gap.fill r).required "to_examine" Raw.counter = r.counter :=
      gap.required_fill r _
    have hother (r : Raw) : (gap.fill r).required "examined" Raw.counter =
        gap.rest.required "examined" Raw.counter :=
      gap.required_fill_of_ne r (by decide) _
    simp only [hopen, hother]
    refine .bind_left _ fun examined _ => ?_
    refine ((Carries.refl Raw.counter).map fun toExamine =>
      (function, ScanStats.mk state examined toExamine)).mono ?_
    rintro _ ⟨_, rfl, rfl⟩
    exact ⟨function, ⟨state, examined, 0⟩, rfl⟩

/-- The fields of a reported pool. -/
def fieldNames : List String := ["name", "state", "scan_stats"]

/-- Where a counter stands in a report. -/
structure CounterPlace where
  report : FieldSlot ["pools"] "pools"
  front : List (List UInt8 × Raw)
  key : List UInt8
  entry : FieldSlot fieldNames "scan_stats"
  scanFront : List (List UInt8 × Raw)
  counter : ScanStats.Counter
  counterKey : List UInt8
  counterKey_eq : bodyText counterKey = .ok counter.name
  scanBack : List (List UInt8 × Raw)
  back : List (List UInt8 × Raw)

namespace CounterPlace

variable (place : CounterPlace)

/-- The scan with a counter. -/
def scan (r : Raw) : Raw := .object (place.scanFront ++ (place.counterKey, r) :: place.scanBack)

/-- The report with a counter. -/
def fill (r : Raw) : Raw :=
  place.report.fill (.object (place.front ++ (place.key, place.entry.fill (place.scan r)) :: place.back))

/-- Whether a later pool of the report has the same key. -/
def Overwritten : Prop := ∃ m ∈ place.back, bodyText m.1 = bodyText place.key

/-- Whether pools are reported, one of them with the counter that is given, unless a later one stands under
its key. -/
def Shows (report : Nat → List Pool) : Prop :=
  ∃ (key : String) (pools : Dict Pool) (p : Pool) (stats : ScanStats), bodyText place.key = .ok key ∧
    (place.Overwritten → report = fun _ => pools.entries.map (·.2)) ∧
    (¬ place.Overwritten → report = fun n =>
      (pools.insert key { p with scan := some (place.counter.put n stats) }).entries.map (·.2))

theorem carries_scan : Carries Raw.counter (fun r => scanOfRaw (place.scan r))
    (fun put => ∃ function stats, put = fun n => (function, place.counter.put n stats)) := by
  unfold scanOfRaw
  refine (carries_members place.scanFront place.scanBack place.counterKey).bind_part ?_
  rintro _ ⟨name, ys, zs, hname, -, -, rfl⟩
  cases place.counterKey_eq.symm.trans hname
  have hknown : place.counter.name ∈ ScanStats.fields := by
    cases place.counter <;> decide
  have hothers (r : Raw) : (ys ++ (place.counter.name, r) :: zs).filter (fun m => m.1 ∉ ScanStats.fields) =
      (ys ++ zs).filter fun m => m.1 ∉ ScanStats.fields := by
    simp [List.filter_append, hknown]
  simp only [hothers]
  refine (carries_ofMembers hknown ys zs).bind_part ?_
  rintro _ ⟨gap, rfl⟩
  exact carries_stats gap _

theorem carries_entry : Carries Raw.counter (fun r => ofRaw (place.entry.fill (place.scan r)))
    (fun put => ∃ (p : Pool) (stats : ScanStats),
      put = fun n => { p with scan := some (place.counter.put n stats) }) := by
  refine ((carries_ofRaw (by decide) (by decide) place.entry).comp place.scan).bind_part ?_
  rintro _ ⟨gap, rfl⟩
  have hscan (r : Raw) : (gap.fill (place.scan r)).optional "scan_stats" scanOfRaw =
      (scanOfRaw (place.scan r)).map some :=
    gap.optional_fill _ _
  simp only [gap.required_fill_of_ne _ (show "scan_stats" ≠ "name" by decide),
    gap.defaulting_fill_of_ne _ (show "scan_stats" ≠ "state" by decide), hscan]
  refine .bind_left _ fun name _ => .bind_left _ fun state _ => ?_
  refine ((place.carries_scan.map some).map fun scan =>
    Pool.mk name state (scan.bind (·.1)) (scan.map (·.2))).mono ?_
  rintro _ ⟨_, ⟨_, ⟨function, stats, rfl⟩, rfl⟩, rfl⟩
  exact ⟨⟨name, state, function, none⟩, stats, rfl⟩

theorem carries_fill : Carries Raw.counter (fun r => reportOfRaw (place.fill r)) place.Shows := by
  have hpools : Carries Raw.counter (fun r => poolsOfRaw (place.fill r)) (fun put =>
      ∃ (p : Pool) (stats : ScanStats) (key : String) (before after : List (String × Pool)),
        bodyText place.key = .ok key ∧ (key ∈ after.map (·.1) ↔ place.Overwritten) ∧
        put = fun n => Dict.ofList
          (before ++ (key, { p with scan := some (place.counter.put n stats) }) :: after)) := by
    refine ((carries_ofRaw (by decide) (by decide) place.report).comp _).bind_part ?_
    rintro _ ⟨gap, rfl⟩
    simp only [gap.defaulting_fill]
    refine (carries_dictionary place.carries_entry place.front place.back place.key).mono ?_
    rintro _ ⟨_, key, before, after, ⟨p, stats, rfl⟩, hkey, hlater, rfl⟩
    exact ⟨p, stats, key, before, after, hkey, hlater, rfl⟩
  refine (hpools.map fun pools => pools.entries.map (·.2)).mono ?_
  rintro _ ⟨_, ⟨p, stats, key, before, after, hkey, hlater, rfl⟩, rfl⟩
  refine ⟨key, Dict.ofList (before ++ after), p, stats, hkey, fun h => ?_, fun h => ?_⟩
  · simp only [Dict.ofList_append_cons_of_mem (hlater.2 h)]
  · simp only [Dict.ofList_append_cons_of_not_mem (mt hlater.1 h)]

end CounterPlace

theorem ofReport_of_ofText {text : String} (h : Raw.ofText text = .ok r) :
    ofReport text = (reportOfRaw r).mapError fun e => .serialization e.message := by
  rw [ofReport, h]
  rfl

theorem takesNumber_counter (place : CounterPlace) :
    TakesNumber ofReport place.fill Raw.Counts place.Shows :=
  takesNumber_of_carries place.carries_fill (fun _ _ => counter_eq_ok_iff) fun _ _ => ofReport_of_ofText

/-! ### Reports that are written -/

def functionValue : Option String → Value
  | none => .null
  | some function => .string function

/-- The value that a report has for a scan with counters. -/
def scanValue (function : Option String) (state : ScanState) (examined toExamine : Value) : Value :=
  .object [("examined", examined), ("function", functionValue function), ("state", .string state.text),
    ("to_examine", toExamine)]

/-- Whether a value is what a report has for a pool. -/
inductive Written : Pool → Value → Prop
  | unscanned (name state : String) :
    Written ⟨name, state, none, none⟩ (.object [("name", .string name), ("state", .string state)])
  | scanned {name state : String} {function : Option String} {stats : ScanStats}
    {examined toExamine : Value} (hexamined : examined.Counts stats.examined)
    (htoExamine : toExamine.Counts stats.toExamine) :
    Written ⟨name, state, function, some stats⟩ (.object [("name", .string name),
      ("scan_stats", scanValue function stats.state examined toExamine), ("state", .string state)])

/-- The value of a report with entries. -/
def report (entries : List (String × Value)) : Value := .object [("pools", .object entries)]

theorem exists_function (function : Option String) :
    ∃ r, Spells (functionValue function).encode r ∧ r.nullable Raw.text = .ok function := by
  cases function with
  | none => exact ⟨.null, spells_null, rfl⟩
  | some function =>
    exact ⟨_, spells_string function, congrArg (Except.map some) (bodyText_escaped function)⟩

theorem scanState_ofRaw_text (state : ScanState) :
    ScanState.ofRaw (.string (escaped state.text)) = .ok state := by
  refine bind_eq_ok.2 ⟨_, bodyText_escaped state.text, ?_⟩
  cases state <;> rfl

theorem exists_scan {function : Option String} {stats : ScanStats} {examined toExamine : Value}
    (hexamined : examined.Counts stats.examined) (htoExamine : toExamine.Counts stats.toExamine) :
    ∃ ms, Spells (scanValue function stats.state examined toExamine).encode (.object ms) ∧
      scanOfRaw (.object ms) = .ok (function, stats) := by
  obtain ⟨a, ha, hacounts⟩ := hexamined.exists_raw
  obtain ⟨b, hb, hbcounts⟩ := htoExamine.exists_raw
  obtain ⟨f, hf, hfunction⟩ := exists_function function
  have hms : List.Forall₂ WrittenMember [("examined", examined), ("function", functionValue function),
      ("state", .string stats.state.text), ("to_examine", toExamine)]
      [(_, a), (_, f), (_, .string _), (_, b)] :=
    .cons ⟨rfl, ha⟩ (.cons ⟨rfl, hf⟩ (.cons ⟨rfl, spells_string _⟩ (.cons ⟨rfl, hb⟩ .nil)))
  refine ⟨_, spells_encode_object hms, ?_⟩
  refine bind_eq_ok.2 ⟨_, members_of_written hms, bind_eq_ok.2 ⟨⟨_, false⟩, rfl, ?_⟩⟩
  exact bind_eq_ok.2 ⟨_, hfunction, bind_eq_ok.2 ⟨[], rfl, bind_eq_ok.2 ⟨_, scanState_ofRaw_text _,
    bind_eq_ok.2 ⟨_, counter_eq_ok_iff.2 hacounts, bind_eq_ok.2 ⟨_, counter_eq_ok_iff.2 hbcounts, rfl⟩⟩⟩⟩⟩

theorem Written.exists_raw (h : Written p v) : ∃ r, Spells v.encode r ∧ ofRaw r = .ok p := by
  cases h with
  | unscanned name state =>
    have hms : List.Forall₂ WrittenMember [("name", .string name), ("state", .string state)]
        [(_, .string _), (_, .string _)] :=
      .cons ⟨rfl, spells_string name⟩ (.cons ⟨rfl, spells_string state⟩ .nil)
    have hfields : Fields.ofRaw fieldNames (.object _) = .ok ⟨_, false⟩ :=
      fields_of_written hms rfl
    refine ⟨.object _, spells_encode_object hms, ?_⟩
    exact bind_eq_ok.2 ⟨_, hfields, bind_eq_ok.2 ⟨_, bodyText_escaped name,
      bind_eq_ok.2 ⟨_, bodyText_escaped state, rfl⟩⟩⟩
  | @scanned name state function stats examined toExamine hexamined htoExamine =>
    obtain ⟨scan, hspells, hscan⟩ := @exists_scan function _ _ _ hexamined htoExamine
    have hms : List.Forall₂ WrittenMember [("name", .string name),
        ("scan_stats", scanValue function stats.state examined toExamine), ("state", .string state)]
        [(_, .string _), (_, .object scan), (_, .string _)] :=
      .cons ⟨rfl, spells_string name⟩ (.cons ⟨rfl, hspells⟩ (.cons ⟨rfl, spells_string state⟩ .nil))
    have hfields : Fields.ofRaw fieldNames (.object _) = .ok ⟨_, false⟩ :=
      fields_of_written hms rfl
    refine ⟨.object _, spells_encode_object hms, ?_⟩
    refine bind_eq_ok.2 ⟨_, hfields, bind_eq_ok.2 ⟨_, bodyText_escaped name,
      bind_eq_ok.2 ⟨_, bodyText_escaped state, bind_eq_ok.2 ⟨some (function, stats), ?_, rfl⟩⟩⟩⟩
    exact congrArg (Except.map some) hscan

/-- A report of pools by their keys, each counter written as a number or as a text, is read as the pools. -/
theorem exists_report {pools : Dict Pool} {entries : List (String × Value)}
    (h : List.Forall₂ (fun e f => e.1 = f.1 ∧ Written e.2 f.2) pools.entries entries) :
    ∃ text : String, text.toUTF8.toList = (report entries).encode ∧
      ofReport text = .ok (pools.entries.map (·.2)) := by
  obtain ⟨ms, hwritten, hread⟩ := exists_between
    (S := WrittenMember) (T := fun e m => bodyText m.1 = .ok e.1 ∧ ofRaw m.2 = .ok e.2) h (by
      rintro ⟨key, p⟩ ⟨_, v⟩ ⟨rfl, hp⟩
      obtain ⟨r, hspells, hr⟩ := hp.exists_raw
      exact ⟨(_, r), ⟨rfl, hspells⟩, bodyText_escaped key, hr⟩)
  have hdocument : List.Forall₂ WrittenMember [("pools", .object entries)] [(_, .object ms)] :=
    .cons ⟨rfl, spells_encode_object hwritten⟩ .nil
  obtain ⟨text, htext, hparse⟩ := (spells_encode_object hdocument).exists_text
  have hfields : Fields.ofRaw ["pools"] (.object _) = .ok ⟨_, false⟩ :=
    fields_of_written hdocument rfl
  have hdictionary : (Raw.object ms).dictionary ofRaw = .ok pools := by
    rw [dictionary_of_entries hread.flip, Dict.ofList_entries]
  have hreport : reportOfRaw (.object _) = .ok (pools.entries.map (·.2)) :=
    bind_eq_ok.2 ⟨pools, bind_eq_ok.2 ⟨_, hfields, hdictionary⟩, rfl⟩
  refine ⟨text, htext, ?_⟩
  rw [ofReport_of_ofText hparse, hreport]
  rfl

end Pool

end Groundwork
