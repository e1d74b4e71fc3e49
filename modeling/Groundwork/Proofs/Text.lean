import Groundwork.Text
import Mathlib.Data.List.DropRight

/-! Fragments of texts, the pieces between separators, and what trimming leaves. Two numbers that are
written alike are equal. -/
namespace Groundwork.Text

variable {sep : Char} {cs : List Char}

theorem occursIn_iff (needle cs : List Char) : occursIn needle cs = true ↔ needle <:+: cs := by
  induction cs with
  | nil => simp [occursIn]
  | cons c cs ih =>
    rw [occursIn, Bool.or_eq_true, List.isPrefixOf_iff_prefix, ih, List.infix_cons_iff]

theorem contains_iff (s needle : String) :
    contains s needle = true ↔ needle.toList <:+: s.toList := occursIn_iff _ _

theorem contains_append {s needle : String} (h : contains s needle = true) (more : String) :
    contains (s ++ more) needle = true := by
  rw [contains_iff, String.toList_append]
  exact ((contains_iff s needle).1 h).trans (List.prefix_append _ _).isInfix

theorem contains_self (s : String) : contains s s = true :=
  (contains_iff s s).2 (List.infix_refl _)

theorem startsWith_iff (s opening : String) :
    startsWith s opening = true ↔ opening.toList <+: s.toList := List.isPrefixOf_iff_prefix

theorem after?_eq_some_iff {opening cs rest : List Char} :
    after? opening cs = some rest ↔ cs = opening ++ rest := by
  unfold after?
  split
  · next h =>
    obtain ⟨tail, rfl⟩ := List.isPrefixOf_iff_prefix.1 h
    simp
  · next h =>
    constructor
    · intro hnone
      cases hnone
    · intro heq
      exact absurd (List.isPrefixOf_iff_prefix.2 ⟨rest, heq.symm⟩) h

theorem before?_eq_some_iff {ending cs front : List Char} :
    before? ending cs = some front ↔ cs = front ++ ending := by
  unfold before?
  split
  · next h =>
    obtain ⟨head, rfl⟩ := List.isSuffixOf_iff_suffix.1 h
    simp
  · next h =>
    constructor
    · intro hnone
      cases hnone
    · intro heq
      exact absurd (List.isSuffixOf_iff_suffix.2 ⟨front, heq.symm⟩) h

/-! A long text is best taken apart as the list of its characters. -/

theorem append_eq_ofList {s t : String} {cs ds : List Char} (hs : s = String.ofList cs)
    (ht : t = String.ofList ds) : s ++ t = String.ofList (cs ++ ds) := by
  rw [hs, ht, String.ofList_append]

theorem contains_ofList (cs : List Char) (needle : String) :
    contains (String.ofList cs) needle = occursIn needle.toList cs := by
  rw [contains, String.toList_ofList]

theorem trim_ofList_ne_empty (h : trimChars cs ≠ []) : trim (String.ofList cs) ≠ "" := by
  rw [trim, String.toList_ofList]
  intro hempty
  exact h (by simpa using congrArg String.toList hempty)

/-! What trimming leaves. Blanks are trimmed, and elsewhere quotes. -/

section

variable {p : Char → Bool} {front back : List Char}

theorem rdropWhile_append_of_pos (hback : ∀ c ∈ back, p c = true) :
    (cs ++ back).rdropWhile p = cs.rdropWhile p := by
  rw [List.rdropWhile, List.reverse_append, List.dropWhile_append_of_pos (by simpa using hback),
    List.rdropWhile]

theorem trimmed_padded (hfront : ∀ c ∈ front, p c = true) (hback : ∀ c ∈ back, p c = true) :
    ((front ++ cs ++ back).dropWhile p).rdropWhile p = (cs.dropWhile p).rdropWhile p := by
  rw [List.append_assoc, List.dropWhile_append_of_pos hfront, List.dropWhile_append]
  split
  · next hnothing => rw [List.isEmpty_iff.1 hnothing, List.dropWhile_eq_nil_iff.2 hback]
  · exact rdropWhile_append_of_pos hback

theorem rdropWhile_eq_self_iff : cs.rdropWhile p = cs ↔ ∀ c ∈ cs.getLast?, p c = false := by
  rw [List.rdropWhile_eq_self_iff]
  rcases List.eq_nil_or_concat cs with rfl | ⟨front, c, rfl⟩ <;> simp

theorem trimmed_eq_self_iff : (cs.dropWhile p).rdropWhile p = cs ↔
    (∀ c ∈ cs.head?, p c = false) ∧ ∀ c ∈ cs.getLast?, p c = false := by
  have hhead : cs.dropWhile p = cs ↔ ∀ c ∈ cs.head?, p c = false := by
    cases cs <;> simp [List.dropWhile_eq_self_iff]
  rw [← hhead, ← rdropWhile_eq_self_iff]
  constructor
  · intro h
    have hlen := (List.rdropWhile_prefix p (cs.dropWhile p)).length_le
    rw [h] at hlen
    have hdrop : cs.dropWhile p = cs :=
      (List.dropWhile_suffix p).eq_of_length (le_antisymm (List.dropWhile_suffix p).length_le hlen)
    exact ⟨hdrop, by rwa [hdrop] at h⟩
  · rintro ⟨hdrop, hrdrop⟩
    rw [hdrop, hrdrop]

end

theorem trimChars_padded {front back : List Char} (hfront : ∀ c ∈ front, isBlank c = true)
    (hback : ∀ c ∈ back, isBlank c = true) : trimChars (front ++ cs ++ back) = trimChars cs :=
  trimmed_padded hfront hback

/-- What is trimmed are blanks at both ends. -/
theorem exists_padded (cs : List Char) : ∃ front back, cs = front ++ trimChars cs ++ back ∧
    (∀ c ∈ front, isBlank c = true) ∧ ∀ c ∈ back, isBlank c = true := by
  refine ⟨cs.takeWhile isBlank, (cs.dropWhile isBlank).rtakeWhile isBlank, ?_,
    fun c => List.mem_takeWhile_imp, fun c => List.mem_rtakeWhile_imp⟩
  have hback : trimChars cs ++ (cs.dropWhile isBlank).rtakeWhile isBlank = cs.dropWhile isBlank :=
    List.rdropWhile_append_rtakeWhile (p := isBlank)
  rw [List.append_assoc, hback, List.takeWhile_append_dropWhile]

theorem trimChars_trimRight (cs : List Char) : trimChars (trimRight cs) = trimChars cs := by
  have hblank : ∀ c ∈ cs.rtakeWhile isBlank, isBlank c = true := fun _ => List.mem_rtakeWhile_imp
  have hsame := @trimChars_padded (trimRight cs) [] _ (by simp) hblank
  rw [List.nil_append] at hsame
  rw [← hsame]
  exact congrArg trimChars (List.rdropWhile_append_rtakeWhile (p := isBlank))

/-- Nothing is trimmed from a text without blanks. -/
theorem trimChars_of_no_blank (h : ∀ c ∈ cs, !isBlank c) : trimChars cs = cs :=
  trimmed_eq_self_iff.2 ⟨fun c hc => by simpa using h c (List.mem_of_mem_head? hc),
    fun c hc => by simpa using h c (List.mem_of_mem_getLast? hc)⟩

theorem trimChars_eq_iff {cs ds : List Char} (hds : ∀ c ∈ ds, isBlank c = false) :
    trimChars cs = ds ↔ ∃ front back, (∀ c ∈ front ++ back, isBlank c = true) ∧
      cs = front ++ ds ++ back := by
  constructor
  · rintro rfl
    obtain ⟨front, back, hcs, hfront, hback⟩ := exists_padded cs
    exact ⟨front, back, fun c hc => (List.mem_append.1 hc).elim (hfront c) (hback c), hcs⟩
  · rintro ⟨front, back, hblank, rfl⟩
    rw [trimChars_padded (fun c hc => hblank c (List.mem_append_left _ hc))
      (fun c hc => hblank c (List.mem_append_right _ hc))]
    exact trimChars_of_no_blank fun c hc => by simp [hds c hc]

/-- What begins and ends with no blank is only trimmed behind, together with what follows. -/
theorem trimChars_append (hne : cs ≠ []) (hsolid : trimChars cs = cs) (ds : List Char) :
    trimChars (cs ++ ds) = cs ++ trimRight ds := by
  obtain ⟨hhead, hlast⟩ := trimmed_eq_self_iff.1 hsolid
  have hfront : (cs ++ ds).dropWhile isBlank = cs ++ ds := by
    obtain ⟨c, cs, rfl⟩ := List.exists_cons_of_ne_nil hne
    simp [hhead c rfl]
  have hback : trimRight cs = cs := rdropWhile_eq_self_iff.2 hlast
  rw [trimChars, hfront, trimRight, List.reverse_append, List.dropWhile_append]
  split
  · next hnothing =>
    rw [trimRight, List.isEmpty_iff.1 hnothing, List.reverse_nil, List.append_nil]
    exact hback
  · rw [List.reverse_append, List.reverse_reverse, trimRight]

theorem trimChars_append_solid {ds : List Char} (hne : ds ≠ []) (hsolid : trimChars ds = ds)
    (cs : List Char) : trimChars (cs ++ ds) = cs.dropWhile isBlank ++ ds := by
  obtain ⟨hhead, hlast⟩ := trimmed_eq_self_iff.1 hsolid
  have hfront : (cs ++ ds).dropWhile isBlank = cs.dropWhile isBlank ++ ds := by
    obtain ⟨d, ds, rfl⟩ := List.exists_cons_of_ne_nil hne
    rw [List.dropWhile_append]
    split
    · next hnothing => simp [List.isEmpty_iff.1 hnothing, hhead d rfl]
    · rfl
  rw [trimChars, hfront]
  refine rdropWhile_eq_self_iff.2 ?_
  rwa [List.getLast?_append_of_ne_nil _ hne]

/-- What stands between two characters that are no blanks is not trimmed. -/
theorem trimChars_enclosed {c d : Char} (hc : isBlank c = false) (hd : isBlank d = false)
    (cs : List Char) : trimChars (c :: (cs ++ [d])) = c :: (cs ++ [d]) := by
  refine trimmed_eq_self_iff.2 ⟨by simpa using hc, ?_⟩
  rw [← List.cons_append, List.getLast?_concat]
  simpa using hd

theorem trimChars_dropReturn (cs : List Char) : trimChars (dropReturn cs) = trimChars cs := by
  unfold dropReturn
  split
  · next rest hrest =>
    have hcs : cs = [] ++ rest.reverse ++ ['\r'] := by
      rw [← List.reverse_reverse cs, hrest]
      simp
    rw [hcs, trimChars_padded (by simp) (List.forall_mem_singleton.2 rfl)]
  · rfl

theorem split_ne_nil (sep : Char) (cs : List Char) : split sep cs ≠ [] := by
  cases cs with
  | nil => simp [split]
  | cons c cs =>
    simp only [split]
    split
    · simp
    · split <;> simp

theorem split_of_not_mem (h : sep ∉ cs) : split sep cs = [cs] := by
  induction cs with
  | nil => rfl
  | cons c cs ih =>
    rw [List.mem_cons, not_or] at h
    simp [split, Ne.symm h.1, ih h.2]

/-- No piece holds a separator. -/
theorem not_mem_of_mem_split {piece : List Char} (h : piece ∈ split sep cs) : sep ∉ piece := by
  induction cs generalizing piece with
  | nil =>
    rw [split, List.mem_singleton] at h
    simp [h]
  | cons c cs ih =>
    rw [split] at h
    by_cases hc : c = sep
    · rw [if_pos hc, List.mem_cons] at h
      rcases h with rfl | h
      · simp
      · exact ih h
    · rw [if_neg hc] at h
      cases hs : split sep cs with
      | nil => exact (split_ne_nil sep cs hs).elim
      | cons first rest =>
        rw [hs] at h
        rcases List.mem_cons.1 h with rfl | h
        · have hfirst : sep ∉ first := ih (hs ▸ List.mem_cons_self)
          simp [Ne.symm hc, hfirst]
        · exact ih (hs ▸ List.mem_cons_of_mem _ h)

theorem split_append_cons (sep : Char) (cs ds : List Char) :
    split sep (cs ++ sep :: ds) = split sep cs ++ split sep ds := by
  induction cs with
  | nil => simp [split]
  | cons c cs ih =>
    simp only [List.cons_append, split, ih]
    split
    · rfl
    · cases h : split sep cs with
      | nil => exact (split_ne_nil sep cs h).elim
      | cons piece pieces => rfl

theorem split_intercalate {pieces : List (List Char)} (hne : pieces ≠ [])
    (h : ∀ piece ∈ pieces, sep ∉ piece) : split sep ([sep].intercalate pieces) = pieces := by
  induction pieces with
  | nil => exact absurd rfl hne
  | cons piece pieces ih =>
    rw [List.forall_mem_cons] at h
    cases pieces with
    | nil => simpa using split_of_not_mem h.1
    | cons next pieces =>
      rw [List.intercalate_cons_cons, List.append_assoc, List.singleton_append, split_append_cons,
        split_of_not_mem h.1, ih (by simp) h.2, List.singleton_append]

/-- A search through the lines is one through the pieces between the line feeds, if empty lines and
carriage returns make no difference to it. -/
theorem findSome?_lineChars {α : Type} {f : List Char → Option α} (hempty : f [] = none)
    (hreturn : ∀ line, f (dropReturn line) = f line) (cs : List Char) :
    (lineChars cs).findSome? f = (split '\n' cs).findSome? f := by
  have hwhole (pieces : List (List Char)) : (pieces.map dropReturn).findSome? f =
      pieces.findSome? f := by
    rw [List.findSome?_map]
    exact congrArg (pieces.findSome? ·) (funext hreturn)
  unfold lineChars
  rw [hwhole]
  split
  · next hlast =>
    obtain ⟨front, hfront⟩ := List.getLast?_eq_some_iff.1 hlast
    rw [hfront, List.dropLast_concat, List.findSome?_append]
    simp [hempty]
  · rfl

theorem cutFirst_eq_some_iff {front back : List Char} :
    cutFirst sep cs = some (front, back) ↔ cs = front ++ sep :: back ∧ sep ∉ front := by
  induction cs generalizing front with
  | nil => simp [cutFirst]
  | cons c cs ih =>
    rw [cutFirst]
    by_cases hc : c = sep
    · rw [if_pos hc]
      cases front with
      | nil => simp [hc, eq_comm]
      | cons d front => simp +contextual [hc]
    · rw [if_neg hc, Option.map_eq_some_iff]
      constructor
      · rintro ⟨⟨front', back'⟩, hcut, heq⟩
        cases heq
        obtain ⟨rfl, hfront⟩ := ih.1 hcut
        exact ⟨rfl, by simp [Ne.symm hc, hfront]⟩
      · rintro ⟨heq, hfront⟩
        cases front with
        | nil => exact absurd (List.cons.inj heq).1 hc
        | cons d front =>
          obtain ⟨rfl, rfl⟩ := List.cons.inj heq
          exact ⟨(front, back), ih.2 ⟨rfl, fun hmem => hfront (.tail _ hmem)⟩, rfl⟩

theorem cutLast_eq_some_iff {front back : List Char} :
    cutLast sep cs = some (front, back) ↔ cs = front ++ sep :: back ∧ sep ∉ back := by
  unfold cutLast
  simp only [Option.map_eq_some_iff, Prod.exists, Prod.mk.injEq, cutFirst_eq_some_iff]
  constructor
  · rintro ⟨rear, head, ⟨hcs, hrear⟩, rfl, rfl⟩
    have hback := congrArg List.reverse hcs
    simp only [List.reverse_reverse, List.reverse_append, List.reverse_cons,
      List.append_assoc, List.singleton_append] at hback
    exact ⟨hback, by simpa using hrear⟩
  · rintro ⟨rfl, hback⟩
    exact ⟨back.reverse, front.reverse, ⟨by simp, by simpa using hback⟩, by simp, by simp⟩

theorem ascending_mergeSort (names : List String) :
    (names.mergeSort (· ≤ ·)).Pairwise (· ≤ ·) := by
  have hsorted := @List.pairwise_mergeSort String (fun a b => decide (a ≤ b))
    (by simpa using fun a b c => String.le_trans) (by simpa using String.le_total) names
  exact hsorted.imp of_decide_eq_true

theorem eq_of_repr_eq {i j : Nat} (h : i.repr = j.repr) : i = j := by
  have hdigits : Nat.toDigits 10 i = Nat.toDigits 10 j := by
    rw [← Nat.toList_repr, ← Nat.toList_repr, h]
  rw [← @Nat.ofDigitChars_ten_toDigits i, hdigits, Nat.ofDigitChars_ten_toDigits]

end Groundwork.Text

