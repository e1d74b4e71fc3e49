import Groundwork.Proofs.Seed
import Groundwork.Proofs.Text

/-! Bundles as maps from seeds to files. A file name is taken apart where it was put together, at its last
point, so no file belongs to two seeds, and what is done to one seed leaves the files of all others
alone. -/
namespace Groundwork

variable {b b' : Bundle} {s t file seed extension : String} {payload : ByteArray}

namespace Seed

theorem splitName?_eq_some_iff : splitName? file = some (seed, extension) ↔
    file = fileName seed extension ∧ seed ≠ "" ∧ extension ∈ extensions := by
  have hname : (fileName seed extension).toList = seed.toList ++ '.' :: extension.toList := by
    simp [fileName]
  unfold splitName?
  constructor
  · intro h
    obtain ⟨⟨front, back⟩, hcut, h⟩ := Option.bind_eq_some_iff.1 h
    dsimp only at h
    split at h
    · cases h
    · next hknown =>
      cases h
      obtain ⟨hfile, -⟩ := Text.cutLast_eq_some_iff.1 hcut
      rw [Bool.or_eq_true, not_or, Bool.not_eq_true, List.isEmpty_eq_false_iff] at hknown
      refine ⟨?_, ?_, by simpa using hknown.2⟩
      · rw [← String.toList_inj, hfile, hname, String.toList_ofList, String.toList_ofList]
      · intro hempty
        exact hknown.1 (by simpa using congrArg String.toList hempty)
  · rintro ⟨rfl, hseed, hextension⟩
    have hcut : Text.cutLast '.' (fileName seed extension).toList =
        some (seed.toList, extension.toList) :=
      Text.cutLast_eq_some_iff.2 ⟨hname, not_mem_extension hextension⟩
    simp [hcut, hseed, hextension]

/-- The seed that a file belongs to. -/
def ofFile? (file : String) : Option String := (splitName? file).map (·.1)

theorem ofFile?_eq_some_iff :
    ofFile? file = some seed ↔ seed ≠ "" ∧ file ∈ Bundle.variants seed := by
  simp only [ofFile?, Option.map_eq_some_iff, Prod.exists, splitName?_eq_some_iff,
    Bundle.variants_eq, List.mem_map]
  constructor
  · rintro ⟨_, e, ⟨rfl, hseed, he⟩, rfl⟩
    exact ⟨hseed, e, he, rfl⟩
  · rintro ⟨hseed, e, he, rfl⟩
    exact ⟨seed, e, ⟨rfl, hseed, he⟩, rfl⟩

end Seed

namespace Bundle

/-- The files of a seed, under whatever extensions they are stored. -/
def filesOf (b : Bundle) (seed : String) : Dict ByteArray :=
  b.files.restrict fun file => Seed.ofFile? file = some seed

theorem get?_filesOf (b : Bundle) (seed file : String) : (b.filesOf seed).get? file =
    if Seed.ofFile? file = some seed then b.files.get? file else none := by
  simp [filesOf]

/-! ### One seed -/

/-- The file of a seed depends on the files under its own names alone. -/
theorem get?_congr (h : ∀ file ∈ variants t, b.files.get? file = b'.files.get? file) :
    b.get? t = b'.get? t := by
  have hjson := h (Seed.fileName t "json") (by simp [variants_eq, Seed.extensions])
  have hyaml := h (Seed.fileName t "yaml") (by simp [variants_eq, Seed.extensions])
  have hyml := h (Seed.fileName t "yml") (by simp [variants_eq, Seed.extensions])
  simp only [get?, Seed.extensions, List.findSome?_cons, List.findSome?_nil, hjson, hyaml, hyml]

theorem get?_insert_self (b : Bundle) (s : String) (payload : ByteArray) :
    (b.insert s payload).get? s = some (Seed.fileName s "json", payload) := by
  have hjson : (b.insert s payload).files.get? (Seed.fileName s "json") = some payload := by
    rw [get?_insert, if_pos rfl]
  simp [get?, Seed.extensions, hjson]

theorem filesOf_insert_self (b : Bundle) (hs : s ≠ "") (payload : ByteArray) :
    (b.insert s payload).filesOf s = Dict.empty.insert (Seed.fileName s "json") payload := by
  apply Dict.ext_get?
  intro file
  rw [get?_filesOf, get?_insert, Dict.get?_insert, Dict.get?_empty]
  by_cases hjson : file = Seed.fileName s "json"
  · have hown : Seed.ofFile? file = some s :=
      Seed.ofFile?_eq_some_iff.2 ⟨hs, hjson ▸ fileName_mem_variants s⟩
    rw [if_pos hown, if_pos hjson, if_pos hjson]
  · rw [if_neg hjson, if_neg hjson]
    split
    · next hown => rw [if_pos (Seed.ofFile?_eq_some_iff.1 hown).2]
    · rfl

theorem contains_remove_self (b : Bundle) (s : String) : (b.remove s).contains s = false := by
  rw [contains_eq_false_iff]
  intro file hfile hkey
  exact (mem_keys_remove.1 hkey).2 hfile

theorem remove_files (b : Bundle) (s : String) :
    (b.remove s).files = b.files.restrict fun file => file ∉ variants s := by
  apply Dict.ext_get?
  intro file
  rw [get?_remove, Dict.get?_restrict]
  by_cases hfile : file ∈ variants s <;> simp [hfile]

/-- A seed has files to take away if and only if it is there. -/
theorem removes_eq_contains (b : Bundle) (s : String) : b.removes s = b.contains s := by
  have hsame : (b.remove s).size = b.size ↔ b.contains s = false := by
    rw [size, size, remove_files, Dict.size_restrict_eq_iff, contains_eq_false_iff]
    simp only [decide_eq_true_eq]
    exact ⟨fun h file hfile hkey => h file hkey hfile, fun h file hkey hfile => h file hfile hkey⟩
  rw [removes, bne, Bool.not_eq_eq_eq_not, Bool.eq_iff_iff, beq_iff_eq, hsame]
  cases b.contains s <;> simp

/-! ### Other seeds -/

/-- Whether two bundles have the same files but for those of a seed. -/
def AgreeBut (s : String) (b b' : Bundle) : Prop :=
  ∀ file, file ∉ variants s → b'.files.get? file = b.files.get? file

theorem agreeBut_insert (b : Bundle) (s : String) (payload : ByteArray) :
    AgreeBut s b (b.insert s payload) := by
  intro file hfile
  have hjson : file ≠ Seed.fileName s "json" :=
    fun hjson => hfile (hjson ▸ fileName_mem_variants s)
  rw [get?_insert, if_neg hjson, if_neg hfile]

theorem agreeBut_remove (b : Bundle) (s : String) : AgreeBut s b (b.remove s) := by
  intro file hfile
  rw [get?_remove, if_neg hfile]

namespace AgreeBut

theorem get? (h : AgreeBut s b b') (hne : t ≠ s) : b'.get? t = b.get? t :=
  get?_congr fun file hfile => h file fun hfile' => hne (eq_of_mem_variants hfile hfile')

theorem filesOf (h : AgreeBut s b b') (hne : t ≠ s) : b'.filesOf t = b.filesOf t := by
  apply Dict.ext_get?
  intro file
  rw [get?_filesOf, get?_filesOf]
  split
  · next hown =>
    have hfile := (Seed.ofFile?_eq_some_iff.1 hown).2
    exact h file fun hfile' => hne (eq_of_mem_variants hfile hfile')
  · rfl

end AgreeBut

/-! ### The names of all seeds -/

theorem mem_seedNames :
    s ∈ b.seedNames ↔ ∃ file ∈ b.files.keys, Seed.ofFile? file = some s := by
  simp only [seedNames, Dict.mem_keys_ofList, List.map_map, List.mem_map, List.mem_filterMap,
    Seed.ofFile?, Option.map_eq_some_iff, Function.comp_apply]
  constructor
  · rintro ⟨split, ⟨file, hfile, hsplit⟩, rfl⟩
    exact ⟨file, hfile, split, hsplit, rfl⟩
  · rintro ⟨file, hfile, split, hsplit, rfl⟩
    exact ⟨split, ⟨file, hfile, hsplit⟩, rfl⟩

theorem contains_iff_mem_seedNames (hs : s ≠ "") : b.contains s = true ↔ s ∈ b.seedNames := by
  rw [← Bool.not_eq_false, contains_eq_false_iff, mem_seedNames]
  simp only [Seed.ofFile?_eq_some_iff, not_forall, not_not]
  constructor
  · rintro ⟨file, hfile, hkey⟩
    exact ⟨file, hkey, hs, hfile⟩
  · rintro ⟨file, hkey, -, hfile⟩
    exact ⟨file, hfile, hkey⟩

/-! ### Bundles that are filled seed by seed -/

/-- A change of a bundle that is about one seed. -/
inductive Edit
  | insert (seed : String) (payload : ByteArray)
  | remove (seed : String)

def Edit.subject : Edit → String
  | .insert seed _ => seed
  | .remove seed => seed

def edit (b : Bundle) : Edit → Bundle
  | .insert seed payload => b.insert seed payload
  | .remove seed => b.remove seed

def edited (b : Bundle) (edits : List Edit) : Bundle := edits.foldl edit b

/-- Whether each file is one that an insertion stores. -/
def IsPlain (b : Bundle) : Prop :=
  ∀ file ∈ b.files.keys, ∃ seed, seed ≠ "" ∧ file = Seed.fileName seed "json"

theorem isPlain_empty : empty.IsPlain := by
  intro file hfile
  cases hfile

namespace IsPlain

theorem edit (h : b.IsPlain) {edit : Edit} (hseed : edit.subject ≠ "") : (b.edit edit).IsPlain := by
  cases edit with
  | insert seed payload =>
    intro file hfile
    obtain ⟨found, hfound⟩ := Dict.mem_keys.1 hfile
    rw [Bundle.edit, get?_insert] at hfound
    split at hfound
    · next hjson => exact ⟨seed, hseed, hjson⟩
    · split at hfound
      · cases hfound
      · exact h file (Dict.mem_keys.2 ⟨found, hfound⟩)
  | remove seed =>
    intro file hfile
    exact h file (mem_keys_remove.1 hfile).1

theorem edited (h : b.IsPlain) {edits : List Edit} (hedits : ∀ edit ∈ edits, edit.subject ≠ "") :
    (b.edited edits).IsPlain := by
  induction edits generalizing b with
  | nil => exact h
  | cons edit edits ih =>
    obtain ⟨hfirst, hrest⟩ := List.forall_mem_cons.1 hedits
    exact ih (h.edit hfirst) hrest

theorem size_filesOf (h : b.IsPlain) (seed : String) : (b.filesOf seed).size ≤ 1 := by
  refine Dict.size_le_one (k := Seed.fileName seed "json") ?_
  intro file hfile
  obtain ⟨found, hfound⟩ := Dict.mem_keys.1 hfile
  rw [get?_filesOf] at hfound
  split at hfound
  · next hown =>
    obtain ⟨seed', -, rfl⟩ := h file (Dict.mem_keys.2 ⟨found, hfound⟩)
    rw [eq_of_mem_variants (Seed.ofFile?_eq_some_iff.1 hown).2 (fileName_mem_variants seed')]
  · cases hfound

/-- The files and the seeds are the same in number: each seed has the file that was stored for it. -/
theorem size_eq (h : b.IsPlain) : b.size = b.seedNames.length := by
  have hnodup : (b.seedNames.map fun seed => Seed.fileName seed "json").Nodup := by
    refine List.Pairwise.map _ ?_ (Dict.nodup_keys _)
    intro seed seed' hne hname
    exact hne (Seed.fileName_inj (by decide) (by decide) hname)
  have hperm : b.files.keys.Perm (b.seedNames.map fun seed => Seed.fileName seed "json") := by
    refine (List.perm_ext_iff_of_nodup b.files.nodup_keys hnodup).2 fun file => ?_
    simp only [List.mem_map, mem_seedNames, Seed.ofFile?_eq_some_iff]
    constructor
    · intro hfile
      obtain ⟨seed, hseed, rfl⟩ := h file hfile
      exact ⟨seed, ⟨_, hfile, hseed, fileName_mem_variants seed⟩, rfl⟩
    · rintro ⟨seed, ⟨file', hfile', -, hown⟩, rfl⟩
      obtain ⟨seed', -, rfl⟩ := h file' hfile'
      rwa [eq_of_mem_variants hown (fileName_mem_variants seed')]
  have hlength := hperm.length_eq
  rwa [List.length_map, Dict.keys, List.length_map] at hlength

end IsPlain

/-- A bundle has one place for each seed: what is inserted is found there alone, what is removed is
gone, and other seeds are left as they are, whatever files the bundle was read with. A bundle that is
filled seed by seed has one file for each of its seeds. -/
theorem insert_remove_by_seed (b : Bundle) (hs : s ≠ "") (payload : ByteArray) :
    ((b.insert s payload).get? s = some (Seed.fileName s "json", payload) ∧
      ((b.insert s payload).filesOf s).entries = [(Seed.fileName s "json", payload)]) ∧
    ((b.remove s).contains s = false ∧ (b.removes s = true ↔ b.contains s = true)) ∧
    (∀ t, t ≠ s →
      (b.insert s payload).get? t = b.get? t ∧ (b.insert s payload).filesOf t = b.filesOf t ∧
      (b.remove s).get? t = b.get? t ∧ (b.remove s).filesOf t = b.filesOf t) ∧
    (b.contains s = true ↔ s ∈ b.seedNames) ∧ b.seedNames.Pairwise (· < ·) ∧
    ∀ edits : List Edit, (∀ edit ∈ edits, edit.subject ≠ "") →
      (∀ t, ((empty.edited edits).filesOf t).size ≤ 1) ∧
      (empty.edited edits).size = (empty.edited edits).seedNames.length := by
  have hinsert := agreeBut_insert b s payload
  have hremove := agreeBut_remove b s
  refine ⟨⟨get?_insert_self b s payload, ?_⟩, ⟨contains_remove_self b s, ?_⟩, ?_,
    contains_iff_mem_seedNames hs, Dict.ascending_keys _, ?_⟩
  · rw [filesOf_insert_self b hs]
    rfl
  · rw [removes_eq_contains]
  · intro t hne
    exact ⟨hinsert.get? hne, hinsert.filesOf hne, hremove.get? hne, hremove.filesOf hne⟩
  · intro edits hedits
    have hplain := isPlain_empty.edited hedits
    exact ⟨hplain.size_filesOf, hplain.size_eq⟩

/-- A bundle with two files of one seed, whose name ends like the file of another one. -/
def variedBundle : Bundle :=
  ⟨.ofList [("wifi.json", "{}".toUTF8), ("wifi.json.yaml", "a: 1".toUTF8),
    ("wifi.json.yml", "a: 2".toUTF8), ("notes.txt", .empty)]⟩

theorem insert_remove_by_seed_variedBundle :
    "wifi.json" ≠ "" ∧
    (variedBundle.insert "wifi.json" .empty).get? "wifi.json" = some ("wifi.json.json", .empty) ∧
    ((variedBundle.insert "wifi.json" .empty).filesOf "wifi.json").entries =
      [("wifi.json.json", .empty)] ∧
    variedBundle.contains "wifi.json" = true ∧ variedBundle.removes "wifi.json" = true ∧
    (variedBundle.remove "wifi.json").contains "wifi.json" = false ∧
    (variedBundle.remove "wifi.json").filesOf "wifi" = variedBundle.filesOf "wifi" ∧
    ∃ edited, edited = empty.edited
        [.insert "wifi" .empty, .insert "wifi.json" .empty, .remove "wifi"] ∧
      edited.size = edited.seedNames.length := by
  have hs : "wifi.json" ≠ "" := by decide
  obtain ⟨⟨hget, hfiles⟩, ⟨hgone, hremoves⟩, hothers, -, -, hedited⟩ :=
    insert_remove_by_seed variedBundle hs .empty
  have hcontains : variedBundle.contains "wifi.json" = true := by decide +kernel
  obtain ⟨-, -, -, hspared⟩ := hothers "wifi" (by decide)
  obtain ⟨-, hsize⟩ := hedited [.insert "wifi" .empty, .insert "wifi.json" .empty, .remove "wifi"]
    (by simp [Edit.subject])
  exact ⟨hs, hget, hfiles, hcontains, hremoves.2 hcontains, hgone, hspared, _, rfl, hsize⟩

end Bundle

end Groundwork
