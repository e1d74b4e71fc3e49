import Groundwork.Proofs.Decimal
import Groundwork.Proofs.Registry.Stack

/-! The entry of a device number. It is the first one whose attribute reads as the number; an entry whose
attribute cannot be read makes no difference, wherever it stands. -/
namespace Groundwork

open Decimal (Writes)

namespace DeviceNumber

variable {s : String} {n : DeviceNumber} {cs front back major minor : List Char}

/-- Whether an attribute is one of a device number: two numbers of 64 bits with a colon between them, and
blanks around the whole. -/
structure Reads (s : String) (n : DeviceNumber) : Prop where
  parts : ∃ front major minor back, s.toList = front ++ (major ++ ':' :: minor) ++ back ∧
    (∀ c ∈ front, Text.isBlank c = true) ∧ (∀ c ∈ back, Text.isBlank c = true) ∧
    Writes major n.major ∧ Writes minor n.minor
  major_lt : n.major < 2 ^ 64
  minor_lt : n.minor < 2 ^ 64

/-- Attributes that are none of a device number. -/
inductive Malformed (s : String) : Prop
  | noColon (h : ':' ∉ s.toList)
  /-- A minus sign, a letter, or a blank inside. -/
  | stray {c : Char} (hc : c ∈ Text.trimChars s.toList) (hdigit : Decimal.isDigit c = false)
      (hplus : c ≠ '+') (hcolon : c ≠ ':')
  | tooGreat {major minor : List Char} {k : Nat}
      (h : Text.trimChars s.toList = major ++ ':' :: minor) (hk : Writes major k ∨ Writes minor k)
      (hbig : 2 ^ 64 ≤ k)

theorem not_isBlank_of_mem_pair {i j : Nat} (hmajor : Writes major i) (hminor : Writes minor j) :
    ∀ c ∈ major ++ ':' :: minor, !Text.isBlank c := by
  intro c hc
  rw [List.mem_append, List.mem_cons] at hc
  rcases hc with hc | rfl | hc
  · rw [(hmajor.isNumeric c hc).not_isBlank]
    rfl
  · rfl
  · rw [(hminor.isNumeric c hc).not_isBlank]
    rfl

theorem colon_not_mem {k : Nat} (h : Writes cs k) : ':' ∉ cs := by
  intro hmem
  rcases h.isNumeric ':' hmem with hdigit | hplus
  · exact absurd hdigit (by decide)
  · exact absurd hplus (by decide)

theorem cutFirst_of_writes {k : Nat} (h : Writes major k) (minor : List Char) :
    Text.cutFirst ':' (major ++ ':' :: minor) = some (major, minor) :=
  Text.cutFirst_eq_some_iff.2 ⟨rfl, colon_not_mem h⟩

theorem cutLast_of_writes {k : Nat} (h : Writes minor k) (major : List Char) :
    Text.cutLast ':' (major ++ ':' :: minor) = some (major, minor) :=
  Text.cutLast_eq_some_iff.2 ⟨rfl, colon_not_mem h⟩

theorem parse?_eq_some : parse? s = some n ↔ ∃ major minor,
    Text.trimChars s.toList = major ++ ':' :: minor ∧ (Writes major n.major ∧ n.major < 2 ^ 64) ∧
      Writes minor n.minor ∧ n.minor < 2 ^ 64 := by
  simp only [parse?, bind, Option.bind_eq_some_iff, Prod.exists, Decimal.unsigned?_eq_some_iff,
    Option.some.injEq]
  constructor
  · rintro ⟨major, minor, hcut, i, hi, j, hj, rfl⟩
    exact ⟨major, minor, (Text.cutFirst_eq_some_iff.1 hcut).1, hi, hj⟩
  · rintro ⟨major, minor, htrim, hi, hj⟩
    rw [htrim]
    exact ⟨major, minor, cutFirst_of_writes hi.1 minor, _, hi, _, hj, rfl⟩

theorem parse?_eq_some_iff : parse? s = some n ↔ Reads s n := by
  rw [parse?_eq_some]
  constructor
  · rintro ⟨major, minor, htrim, ⟨hi, hilt⟩, hj, hjlt⟩
    obtain ⟨front, back, hs, hfront, hback⟩ := Text.exists_padded s.toList
    rw [htrim] at hs
    exact ⟨⟨front, major, minor, back, hs, hfront, hback, hi, hj⟩, hilt, hjlt⟩
  · rintro ⟨⟨front, major, minor, back, hs, hfront, hback, hi, hj⟩, hilt, hjlt⟩
    refine ⟨major, minor, ?_, ⟨hi, hilt⟩, hj, hjlt⟩
    rw [hs, Text.trimChars_padded hfront hback]
    exact Text.trimChars_of_no_blank (not_isBlank_of_mem_pair hi hj)

/-- An attribute is one of a single number. -/
theorem Reads.unique {n' : DeviceNumber} (h : Reads s n) (h' : Reads s n') : n = n' :=
  Option.some.inj ((parse?_eq_some_iff.2 h).symm.trans (parse?_eq_some_iff.2 h'))

theorem Reads.iff_eq (h : Reads s n) (n' : DeviceNumber) : Reads s n' ↔ n' = n := by
  constructor
  · exact fun h' => h'.unique h
  · rintro rfl
    exact h

theorem Malformed.not_reads (h : Malformed s) (n : DeviceNumber) : ¬ Reads s n := by
  intro hreads
  obtain ⟨major, minor, htrim, ⟨hi, hilt⟩, hj, hjlt⟩ := parse?_eq_some.1 (parse?_eq_some_iff.2 hreads)
  cases h with
  | noColon h =>
    obtain ⟨front, back, hs, -, -⟩ := Text.exists_padded s.toList
    rw [hs, htrim] at h
    simp at h
  | @stray c hc hdigit hplus hcolon =>
    have hnumeric {cs : List Char} {k : Nat} (hk : Writes cs k) : c ∉ cs := by
      intro hmem
      rcases hk.isNumeric c hmem with hyes | heq
      · rw [hdigit] at hyes
        cases hyes
      · exact hplus heq
    rw [htrim, List.mem_append, List.mem_cons] at hc
    rcases hc with hc | hc | hc
    · exact hnumeric hi hc
    · exact hcolon hc
    · exact hnumeric hj hc
  | @tooGreat major' minor' k h hk hbig =>
    rw [htrim] at h
    rcases hk with hk | hk
    · -- neither major number holds a colon, so the first colon parts both
      have hcut := cutFirst_of_writes hi minor
      rw [h, cutFirst_of_writes hk] at hcut
      cases hcut
      exact absurd hilt (Nat.not_lt.2 (hk.unique hi ▸ hbig))
    · have hcut := cutLast_of_writes hj major
      rw [h, cutLast_of_writes hk] at hcut
      cases hcut
      exact absurd hjlt (Nat.not_lt.2 (hk.unique hj ▸ hbig))

/-! ### Printed numbers -/

theorem toList_text (n : DeviceNumber) :
    n.text.toList = (toString n.major).toList ++ ':' :: (toString n.minor).toList := by
  simp only [text, toString, String.toList_append, List.append_assoc]
  rfl

/-- A number of 64 bits is read back from its text, whatever blanks follow. -/
theorem reads_text (hmajor : n.major < 2 ^ 64) (hminor : n.minor < 2 ^ 64) (blanks : String)
    (hblanks : ∀ c ∈ blanks.toList, Text.isBlank c = true) : Reads (n.text ++ blanks) n where
  parts := by
    refine ⟨[], (toString n.major).toList, (toString n.minor).toList, blanks.toList, ?_, by simp,
      hblanks, .plain (Decimal.digits_toString _), .plain (Decimal.digits_toString _)⟩
    rw [String.toList_append, toList_text, List.nil_append]
  major_lt := hmajor
  minor_lt := hminor

end DeviceNumber

namespace Registry

variable {r r' : Registry} {n : DeviceNumber} {entry : String} {names names' : List String}

/-- Whether an entry has a device number. -/
def Numbers (r : Registry) (entry : String) (n : DeviceNumber) : Prop :=
  ∃ s, r.read (entry ++ "/dev") = .ok s ∧ DeviceNumber.Reads s n

theorem entryHas_iff : r.entryHas n entry = true ↔ r.Numbers entry n := by
  unfold entryHas Numbers
  cases r.read (entry ++ "/dev") with
  | error e => simp
  | ok s =>
    rw [beq_iff_eq, DeviceNumber.parse?_eq_some_iff]
    constructor
    · exact fun h => ⟨s, rfl, h⟩
    · rintro ⟨_, hs, h⟩
      cases hs
      exact h

/-- Whether an entry has no device number at all. -/
def Unnumbered (r : Registry) (entry : String) : Prop := ∀ n, ¬ r.Numbers entry n

theorem unnumbered_of_unread {cause : SystemError} (h : r.read (entry ++ "/dev") = .error cause) :
    r.Unnumbered entry := by
  rintro n ⟨s, hs, -⟩
  rw [h] at hs
  cases hs

theorem unnumbered_of_malformed {s : String} (h : r.read (entry ++ "/dev") = .ok s)
    (hs : DeviceNumber.Malformed s) : r.Unnumbered entry := by
  rintro n ⟨s', hs', hreads⟩
  rw [h] at hs'
  cases hs'
  exact hs.not_reads n hreads

/-- The second list is the first one with entries put in that have no device number. -/
inductive Padded (r : Registry) : List String → List String → Prop
  | nil : Padded r [] []
  | same {entry : String} {names names' : List String} (rest : Padded r names names') :
      Padded r (entry :: names) (entry :: names')
  | put {entry : String} {names names' : List String} (h : r.Unnumbered entry)
      (rest : Padded r names names') : Padded r names (entry :: names')

theorem Padded.find?_eq (h : Padded r names names') :
    names'.find? (r.entryHas n) = names.find? (r.entryHas n) := by
  induction h with
  | nil => rfl
  | same _ ih => rw [List.find?_cons, List.find?_cons, ih]
  | @put entry _ _ h _ ih =>
    have hno : r.entryHas n entry = false := by
      rw [← Bool.not_eq_true, entryHas_iff]
      exact h n
    rw [List.find?_cons, hno, ih]

/-! ### The search -/

theorem findEntry_of_entries (h : r.entries = .ok names) : r.findEntry n =
    match names.find? (r.entryHas n) with
    | some entry => .ok entry
    | none => .error (.deviceNotFound s!"no block device with number {n.text}") := by
  rw [findEntry, h]
  rfl

theorem findEntry_eq_ok_iff (h : r.entries = .ok names) : r.findEntry n = .ok entry ↔
    ∃ front back, names = front ++ entry :: back ∧ r.Numbers entry n ∧
      ∀ other ∈ front, ¬ r.Numbers other n := by
  have hfind : r.findEntry n = .ok entry ↔ names.find? (r.entryHas n) = some entry := by
    rw [findEntry_of_entries h]
    cases names.find? (r.entryHas n) <;> simp
  rw [hfind, List.find?_eq_some_iff_append, entryHas_iff]
  have hfront (front : List String) : (∀ other ∈ front, !r.entryHas n other) ↔
      ∀ other ∈ front, ¬ r.Numbers other n := by
    simp only [Bool.not_eq_true', ← Bool.not_eq_true, entryHas_iff]
  constructor
  · rintro ⟨hnumber, front, back, hnames, hno⟩
    exact ⟨front, back, hnames, hnumber, (hfront front).1 hno⟩
  · rintro ⟨front, back, hnames, hnumber, hno⟩
    exact ⟨hnumber, front, back, hnames, (hfront front).2 hno⟩

theorem findEntry_not_found_iff (h : r.entries = .ok names) :
    (∃ why, r.findEntry n = .error (.deviceNotFound why)) ↔ ∀ entry ∈ names, ¬ r.Numbers entry n := by
  have hnone : names.find? (r.entryHas n) = none ↔ ∀ entry ∈ names, ¬ r.Numbers entry n := by
    simp only [List.find?_eq_none, entryHas_iff]
  rw [← hnone, findEntry_of_entries h]
  cases names.find? (r.entryHas n) <;> simp

theorem ascending_entries_registry {t : FileTree} {root : String}
    {deviceNumber : String → Except SystemError DeviceNumber}
    (h : (t.registry root deviceNumber).entries = .ok names) : names.Pairwise (· ≤ ·) := by
  obtain ⟨dir, -, rfl⟩ := FileTree.list_eq_ok.1 h
  exact Text.ascending_mergeSort _

theorem ascending_entries_table {t : RegistryTable} (h : t.registry.entries = .ok names) :
    names.Pairwise (· ≤ ·) := by
  cases h
  exact ascending_distinctNames _

/-- The entry of a device number is the first whose attribute reads as it, and so the least by name where
the names ascend; only where there is none is the device not found. Entries without a number, be it that
their attribute is missing or that it is malformed, may stand anywhere. The text of a number reads as
this number alone. -/
theorem findEntry_first (r : Registry) (n : DeviceNumber) {names : List String}
    (h : r.entries = .ok names) :
    (∀ entry, r.findEntry n = .ok entry ↔ ∃ front back, names = front ++ entry :: back ∧
      r.Numbers entry n ∧ ∀ other ∈ front, ¬ r.Numbers other n) ∧
    (names.Pairwise (· ≤ ·) → ∀ entry, r.findEntry n = .ok entry →
      ∀ other ∈ names, r.Numbers other n → entry ≤ other) ∧
    ((∃ why, r.findEntry n = .error (.deviceNotFound why)) ↔
      ∀ entry ∈ names, ¬ r.Numbers entry n) ∧
    (∀ (r' : Registry) names', r'.read = r.read → r'.entries = .ok names' → Padded r names names' →
      r'.findEntry n = r.findEntry n) ∧
    (∀ entry cause, r.read (entry ++ "/dev") = .error cause → r.Unnumbered entry) ∧
    (∀ entry s, r.read (entry ++ "/dev") = .ok s → DeviceNumber.Malformed s →
      r.Unnumbered entry) ∧
    (n.major < 2 ^ 64 → n.minor < 2 ^ 64 → ∀ n',
      (DeviceNumber.Reads n.text n' ↔ n' = n) ∧ (DeviceNumber.Reads (n.text ++ "\n") n' ↔ n' = n)) := by
  refine ⟨fun entry => findEntry_eq_ok_iff h, ?_, findEntry_not_found_iff h, ?_,
    fun entry cause => unnumbered_of_unread, fun entry s => unnumbered_of_malformed, ?_⟩
  · intro hascending entry hentry other hother hnumber
    obtain ⟨front, back, rfl, -, hno⟩ := (findEntry_eq_ok_iff h).1 hentry
    have hafter := (List.pairwise_append.1 hascending).2.1
    rcases List.mem_append.1 hother with hother | hother
    · exact absurd hnumber (hno other hother)
    · rcases List.mem_cons.1 hother with rfl | hother
      · exact String.le_refl other
      · exact List.rel_of_pairwise_cons hafter hother
  · intro r' names' hread h' hpadded
    have hnumbers : r'.entryHas n = r.entryHas n := by
      funext entry
      rw [entryHas, hread, entryHas]
    rw [findEntry_of_entries h', findEntry_of_entries h, hnumbers, hpadded.find?_eq]
  · intro hmajor hminor n'
    have hplain : DeviceNumber.Reads n.text n := by
      have hreads := DeviceNumber.reads_text hmajor hminor "" (by simp)
      rwa [String.append_empty] at hreads
    have hline : DeviceNumber.Reads (n.text ++ "\n") n :=
      DeviceNumber.reads_text hmajor hminor "\n" (List.forall_mem_singleton.2 rfl)
    exact ⟨hplain.iff_eq n', hline.iff_eq n'⟩

/-! ### A registry with litter -/

/-- A RAM disk and a network device without a proper number stand around the disk. -/
def litteredTable : RegistryTable where
  anchors := []
  entries := ["zram0", "sda", "nbd0", "dm-0"]
  attributes := [("zram0/dev", "garbage"), ("sda/dev", "8:0\n"), ("nbd0/dev", "43:-1")]
  members := []
  links := []

theorem entries_litteredTable :
    litteredTable.registry.entries = .ok ["dm-0", "nbd0", "sda", "zram0"] :=
  congrArg Except.ok <| by
    simp [distinctNames, litteredTable, List.mergeSort, List.MergeSort.Internal.splitInTwo]

theorem findEntry_first_litteredTable :
    litteredTable.registry.findEntry ⟨8, 0⟩ = .ok "sda" ∧
    (∀ other ∈ ["dm-0", "nbd0", "sda", "zram0"], litteredTable.registry.Numbers other ⟨8, 0⟩ →
      "sda" ≤ other) ∧
    (∃ why, litteredTable.registry.findEntry ⟨43, 1⟩ = .error (.deviceNotFound why)) ∧
    litteredTable.registry.Unnumbered "dm-0" ∧ litteredTable.registry.Unnumbered "nbd0" ∧
    litteredTable.registry.Unnumbered "zram0" ∧
    ∀ n', DeviceNumber.Reads ("8:0" ++ "\n") n' ↔ n' = ⟨8, 0⟩ := by
  obtain ⟨hfirst, hleast, -, -, hunread, hmalformed, htext⟩ :=
    findEntry_first litteredTable.registry ⟨8, 0⟩ entries_litteredTable
  have hread : litteredTable.registry.read ("sda" ++ "/dev") = .ok "8:0\n" :=
    Action.eq_ok_of_toOption (by decide +kernel)
  have hdisk : litteredTable.registry.Numbers "sda" ⟨8, 0⟩ :=
    ⟨_, hread, (htext (by decide) (by decide) _).2.2 rfl⟩
  have hmissing : litteredTable.registry.Unnumbered "dm-0" :=
    hunread "dm-0" (.noAttribute "dm-0/dev") rfl
  have hnetwork : litteredTable.registry.Unnumbered "nbd0" := by
    refine hmalformed "nbd0" "43:-1" (Action.eq_ok_of_toOption (by decide +kernel)) ?_
    exact .stray (c := '-') (by decide +kernel) rfl (by decide) (by decide)
  have hram : litteredTable.registry.Unnumbered "zram0" := by
    refine hmalformed "zram0" "garbage" (Action.eq_ok_of_toOption (by decide +kernel)) ?_
    exact .noColon (by decide +kernel)
  have hfound : litteredTable.registry.findEntry ⟨8, 0⟩ = .ok "sda" := by
    refine (hfirst "sda").2 ⟨["dm-0", "nbd0"], ["zram0"], rfl, hdisk, ?_⟩
    simpa using ⟨hmissing ⟨8, 0⟩, hnetwork ⟨8, 0⟩⟩
  refine ⟨hfound, hleast (ascending_entries_table entries_litteredTable) "sda" hfound, ?_, hmissing,
    hnetwork, hram, fun n' => (htext (by decide) (by decide) n').2⟩
  refine (findEntry_first litteredTable.registry ⟨43, 1⟩ entries_litteredTable).2.2.1.2 ?_
  simp only [List.mem_cons, List.not_mem_nil, or_false, forall_eq_or_imp, forall_eq]
  refine ⟨hmissing _, hnetwork _, ?_, hram _⟩
  rintro ⟨s, hs, hreads⟩
  rw [hread] at hs
  cases hs
  exact absurd ((htext (by decide) (by decide) _).2.1 hreads) (by decide)

end Registry

end Groundwork
