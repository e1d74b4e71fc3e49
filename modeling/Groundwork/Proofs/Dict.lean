import Groundwork.Dict
import Mathlib.Data.List.Nodup

/-! Look-ups after each change of a dictionary. Two dictionaries in which all look-ups agree are the
same value. -/
namespace Groundwork.Dict

variable {α : Type} {d d' : Dict α} {k j : String} {v w : α}

theorem find?_insertEntry (k j : String) (v : α) (l : List (String × α)) :
    ((insertEntry k v l).find? (·.1 = j)).map (·.2) =
      if j = k then some v else (l.find? (·.1 = j)).map (·.2) := by
  induction l with
  | nil => by_cases hj : j = k <;> simp [insertEntry, hj, Ne.symm]
  | cons e rest ih =>
    simp only [insertEntry]
    split
    · by_cases hj : k = j <;> simp [hj, eq_comm]
    · split
      · next hk =>
        by_cases hj : k = j
        · simp [hj]
        · have he : e.1 ≠ j := hk ▸ hj
          simp [hj, he, Ne.symm hj]
      · next hk =>
        by_cases he : e.1 = j
        · have hj : j ≠ k := fun h => hk (h ▸ he.symm)
          simp [he, hj]
        · simpa [List.find?_cons, he] using ih

@[simp] theorem get?_insert (d : Dict α) (k j : String) (v : α) :
    (d.insert k v).get? j = if j = k then some v else d.get? j := find?_insertEntry k j v d.entries

@[simp] theorem get?_empty (j : String) : (empty : Dict α).get? j = none := rfl

@[simp] theorem get?_erase (d : Dict α) (k j : String) :
    (d.erase k).get? j = if j = k then none else d.get? j := by
  unfold get? erase
  rw [List.find?_filter]
  by_cases hj : j = k
  · subst hj
    simp
  · have hcond : (fun e : String × α => !decide (e.1 = k) && decide (e.1 = j)) =
        fun e => decide (e.1 = j) := by
      funext e
      by_cases he : e.1 = j <;> simp [he, hj]
    simp [hj, hcond]

theorem get?_eq_some : d.get? k = some v ↔ (k, v) ∈ d.entries := by
  unfold get?
  constructor
  · intro h
    obtain ⟨e, he, rfl⟩ := Option.map_eq_some_iff.1 h
    have hk : e.1 = k := by simpa using List.find?_some he
    exact hk ▸ List.mem_of_find?_eq_some he
  · intro h
    obtain ⟨front, back, hd⟩ := List.append_of_mem h
    have hp := d.ascending
    rw [hd, List.pairwise_append] at hp
    have hfront : front.find? (·.1 = k) = none := by
      rw [List.find?_eq_none]
      intro e he hek
      have hlt := hp.2.2 e he (k, v) List.mem_cons_self
      rw [of_decide_eq_true hek] at hlt
      exact String.lt_irrefl _ hlt
    simp [hd, hfront]

theorem mem_keys : k ∈ d.keys ↔ ∃ v, d.get? k = some v := by
  simp only [keys, List.mem_map, get?_eq_some]
  constructor
  · rintro ⟨e, he, rfl⟩
    exact ⟨e.2, he⟩
  · rintro ⟨v, hv⟩
    exact ⟨(k, v), hv, rfl⟩

theorem get?_eq_none : d.get? k = none ↔ k ∉ d.keys := by
  rw [mem_keys]
  cases h : d.get? k <;> simp

theorem ascending_keys (d : Dict α) : d.keys.Pairwise (· < ·) :=
  d.ascending.map _ fun _ _ hab => hab

theorem nodup_keys (d : Dict α) : d.keys.Nodup := d.ascending_keys.nodup

/-- Equal look-ups make equal dictionaries: both list the same entries, and in the same order. -/
theorem ext_get? (h : ∀ k, d.get? k = d'.get? k) : d = d' := by
  have hnodup (c : Dict α) : c.entries.Nodup := by
    refine c.ascending.imp ?_
    intro a b hab he
    rw [he] at hab
    exact String.lt_irrefl _ hab
  apply ext
  refine List.Perm.eq_of_pairwise ?_ d.ascending d'.ascending ?_
  · intro a b _ _ hab hba
    exact (String.lt_irrefl _ (String.lt_trans hab hba)).elim
  · rw [List.perm_ext_iff_of_nodup (hnodup d) (hnodup d')]
    rintro ⟨k, v⟩
    rw [← get?_eq_some, ← get?_eq_some, h]

/-- The entries whose keys are of a kind. -/
def restrict (d : Dict α) (p : String → Bool) : Dict α :=
  ⟨d.entries.filter fun e => p e.1, d.ascending.filter _⟩

@[simp] theorem get?_restrict (d : Dict α) (p : String → Bool) (k : String) :
    (d.restrict p).get? k = if p k then d.get? k else none := by
  apply Option.ext
  intro v
  rw [get?_eq_some, restrict, List.mem_filter, ← get?_eq_some]
  split
  · next hp => simp [hp]
  · next hp => simp [hp]

theorem size_restrict_eq_iff {p : String → Bool} :
    (d.restrict p).size = d.size ↔ ∀ j ∈ d.keys, p j = true := by
  rw [size, size, restrict, List.length_filter_eq_length_iff, keys, List.forall_mem_map]

/-- A dictionary with at most one key has at most one entry. -/
theorem size_le_one (h : ∀ j ∈ d.keys, j = k) : d.size ≤ 1 := by
  have hreplicate : d.keys = List.replicate d.size k := by
    rw [List.eq_replicate_iff]
    exact ⟨List.length_map _, h⟩
  have hnodup := d.nodup_keys
  rw [hreplicate, List.nodup_replicate] at hnodup
  exact hnodup

theorem get?_foldl_insert (l : List (String × α)) (d : Dict α) (j : String) :
    (l.foldl (fun d e => d.insert e.1 e.2) d).get? j =
      ((l.reverse.find? (·.1 = j)).map (·.2)).or (d.get? j) := by
  induction l generalizing d with
  | nil => simp
  | cons e rest ih =>
    rw [List.foldl_cons, ih, get?_insert, List.reverse_cons, List.find?_append]
    cases (rest.reverse.find? (·.1 = j)) with
    | some e' => simp
    | none => by_cases he : e.1 = j <;> simp [he, Ne.symm, eq_comm]

/-- Of several entries of one key the last is found. -/
theorem get?_ofList (l : List (String × α)) (j : String) :
    (ofList l).get? j = (l.reverse.find? (·.1 = j)).map (·.2) := by
  simp [ofList, get?_foldl_insert]

/-- An entry that is written over makes no difference. -/
theorem ofList_append_cons_of_mem {front back : List (String × α)} (h : k ∈ back.map (·.1)) (v : α) :
    ofList (front ++ (k, v) :: back) = ofList (front ++ back) := by
  apply ext_get?
  intro j
  simp only [get?_ofList, List.reverse_append, List.reverse_cons, List.append_assoc,
    List.find?_append]
  by_cases hj : k = j
  · obtain ⟨e, he, hek⟩ := List.mem_map.1 h
    have hlater : (back.reverse.find? (·.1 = j)).isSome = true :=
      List.find?_isSome.2 ⟨e, List.mem_reverse.2 he, decide_eq_true (hek.trans hj)⟩
    obtain ⟨e', he'⟩ := Option.isSome_iff_exists.1 hlater
    simp only [he', Option.some_or]
  · have hother : [(k, v)].find? (·.1 = j) = none := by simp [hj]
    rw [hother, Option.none_or]

theorem ofList_append_cons_of_not_mem {front back : List (String × α)} (h : k ∉ back.map (·.1)) (v : α) :
    ofList (front ++ (k, v) :: back) = (ofList (front ++ back)).insert k v := by
  apply ext_get?
  intro j
  simp only [get?_insert, get?_ofList, List.reverse_append, List.reverse_cons, List.append_assoc,
    List.find?_append]
  by_cases hj : k = j
  · have hlast : back.reverse.find? (·.1 = j) = none := List.find?_eq_none.2 fun e he hej =>
      h (List.mem_map.2 ⟨e, List.mem_reverse.1 he, (of_decide_eq_true hej).trans hj.symm⟩)
    simp [hlast, hj]
  · have hother : [(k, v)].find? (·.1 = j) = none := by simp [hj]
    simp [hother, Ne.symm hj]

theorem get?_mapValues {β : Type} (f : α → β) (d : Dict α) (j : String) :
    (d.mapValues f).get? j = (d.get? j).map f := by
  rw [get?, mapValues, List.find?_map, Option.map_map, get?, Option.map_map]
  rfl

theorem mem_of_mem_ofList {l : List (String × α)} {e : String × α} (h : e ∈ (ofList l).entries) :
    e ∈ l := by
  obtain ⟨key, v⟩ := e
  have hget : (ofList l).get? key = some v := get?_eq_some.2 h
  rw [get?_ofList] at hget
  obtain ⟨e, hfind, rfl⟩ := Option.map_eq_some_iff.1 hget
  have hkey := of_decide_eq_true (List.find?_eq_some_iff_append.1 hfind).1
  exact hkey ▸ List.mem_reverse.1 (List.mem_of_find?_eq_some hfind)

theorem mem_keys_ofList {l : List (String × α)} : k ∈ (ofList l).keys ↔ k ∈ l.map (·.1) := by
  rw [← Decidable.not_iff_not, ← get?_eq_none, get?_ofList]
  rw [Option.map_eq_none_iff, List.find?_eq_none]
  constructor
  · intro h hk
    obtain ⟨e, he, rfl⟩ := List.mem_map.1 hk
    exact h e (List.mem_reverse.2 he) (decide_eq_true rfl)
  · intro h e he hek
    exact h (List.mem_map.2 ⟨e, List.mem_reverse.1 he, of_decide_eq_true hek⟩)

theorem ofList_entries (d : Dict α) : ofList d.entries = d := by
  apply ext_get?
  intro k
  rw [get?_ofList]
  cases h : d.get? k with
  | none =>
    rw [get?_eq_none] at h
    have hnone : d.entries.reverse.find? (·.1 = k) = none := by
      rw [List.find?_eq_none]
      intro e he hek
      exact h (List.mem_map.2 ⟨e, List.mem_reverse.1 he, of_decide_eq_true hek⟩)
    simp [hnone]
  | some v =>
    have hmem := get?_eq_some.1 h
    cases hf : d.entries.reverse.find? (·.1 = k) with
    | none =>
      rw [List.find?_eq_none] at hf
      exact (hf (k, v) (List.mem_reverse.2 hmem) (by simp)).elim
    | some e =>
      have he := List.mem_reverse.1 (List.mem_of_find?_eq_some hf)
      have hek : e.1 = k := by simpa using List.find?_some hf
      have hget : d.get? k = some e.2 := get?_eq_some.2 (hek ▸ he)
      simpa [h] using hget.symm

/-- The first entries of a dictionary are those of another one. -/
theorem entries_ofList_of_prefix {l : List (String × α)} (h : l <+: d.entries) :
    (ofList l).entries = l := by
  have hascending : l.Pairwise (fun a b => a.1 < b.1) := d.ascending.sublist h.sublist
  exact congrArg entries (ofList_entries ⟨l, hascending⟩)

end Groundwork.Dict
