import Groundwork.Proofs.Json.Written

/-! Counters in JSON documents. A counter is a number below `2 ^ 64`, written in digits or as a text of
digits, and nothing else is taken for one. -/
namespace Groundwork.Json

open Raw

variable {n : Nat}

/-- Whether a document is a counter: digits without sign, fraction and exponent, or a text of digits,
perhaps after a plus sign, with blanks around them. -/
inductive Raw.Counts : Raw → Nat → Prop
  | number {digits : List UInt8} {n : Nat} (hvalue : magnitude digits = n) (h : n < 2 ^ 64) :
    Counts (.number ⟨false, digits, [], none⟩) n
  | text {body : List UInt8} {front digits back : List Char} {n : Nat}
    (hbody : bodyText body = .ok (String.ofList (front ++ digits ++ back)))
    (hfront : ∀ c ∈ front, Text.isBlank c = true) (hback : ∀ c ∈ back, Text.isBlank c = true)
    (hdigits : Decimal.Writes digits n) (h : n < 2 ^ 64) : Counts (.string body) n

/-! ### Numbers -/

/-- Digits that are taken to the last are those of a number of 64 bits. -/
theorem eq_of_takeSignificand {m : Nat} {digits : List UInt8} (hm : m < 2 ^ 64)
    (h : takeSignificand m digits = (n, [])) :
    digits.foldl (fun n b => n * 10 + (b.toNat - 48)) m = n ∧ n < 2 ^ 64 := by
  induction digits generalizing m with
  | nil =>
    cases h
    exact ⟨rfl, hm⟩
  | cons b digits ih =>
    rw [takeSignificand] at h
    split at h
    · next hfits => exact ih hfits h
    · cases h

/-- A number with a fraction, an exponent or too many digits is not whole. -/
theorem Numeral.real_ne_whole (num : Numeral) (i : Int) : num.real ≠ .ok (.whole i) := by
  have hscaled (a : Except Error Binary64) :
      (a >>= fun x => Except.ok (Number.real num.negative x)) ≠ .ok (.whole i) := by
    intro h
    obtain ⟨_, -, h⟩ := bind_eq_ok.1 h
    cases h
  intro h
  simp only [Numeral.real] at h
  split at h
  · exact hscaled _ h
  · split at h
    · exact hscaled _ h
    · split at h
      · exact hscaled _ h
      · exact hscaled _ h

theorem number_eq_whole_iff {num : Numeral} : num.number = .ok (.whole n) ↔
    num = ⟨false, num.whole, [], none⟩ ∧ magnitude num.whole = n ∧ n < 2 ^ 64 := by
  obtain ⟨negative, whole, fraction, exponent⟩ := num
  constructor
  · intro h
    rw [Numeral.number] at h
    simp only at h
    split at h
    · next hplain =>
      simp only [Bool.and_eq_true, List.isEmpty_iff, Option.isNone_iff_eq_none] at hplain
      obtain ⟨⟨rfl, rfl⟩, hdropped⟩ := hplain
      obtain ⟨hvalue, hsmall⟩ := eq_of_takeSignificand (by decide) (Prod.ext rfl hdropped)
      split at h
      · next hpositive =>
        cases h
        obtain rfl : negative = false := by simpa using hpositive
        exact ⟨rfl, hvalue, hsmall⟩
      · split at h
        · next hrange =>
          simp only [Except.ok.injEq, Number.whole.injEq] at h
          omega
        · exact (Numeral.real_ne_whole _ _ h).elim
    · exact (Numeral.real_ne_whole _ _ h).elim
  · rintro ⟨heq, rfl, hsmall⟩
    rw [heq, number_nonneg hsmall]

theorem counts_number_iff {num : Numeral} : (Raw.number num).Counts n ↔
    num = ⟨false, num.whole, [], none⟩ ∧ magnitude num.whole = n ∧ n < 2 ^ 64 := by
  constructor
  · intro h
    cases h with
    | number hvalue h => exact ⟨rfl, hvalue, h⟩
  · rintro ⟨heq, hvalue, h⟩
    rw [heq]
    exact .number hvalue h

theorem counter_number_eq_ok_iff {num : Numeral} : (Raw.number num).counter = .ok n ↔
    num = ⟨false, num.whole, [], none⟩ ∧ magnitude num.whole = n ∧ n < 2 ^ 64 := by
  have hunsigned : (Raw.number num).counter = (Raw.number num).unsigned 64 := rfl
  rw [← number_eq_whole_iff, hunsigned, Raw.unsigned, bind_eq_ok]
  constructor
  · rintro ⟨v, hv, h⟩
    cases v with
    | whole i =>
      simp only at h
      split at h
      · next hrange =>
        cases h
        rw [hv, Int.toNat_of_nonneg hrange.1]
      · cases h
    | real => cases h
  · intro h
    have hsmall : n < Nat.pow 2 64 := (number_eq_whole_iff.1 h).2.2
    exact ⟨_, h, by simp [hsmall]⟩

/-! ### Texts -/

theorem trimChars_of_writes {cs : List Char} (h : Decimal.Writes cs n) : Text.trimChars cs = cs :=
  Text.trimChars_of_no_blank fun c hc => by simp [(h.isNumeric c hc).not_isBlank]

theorem counts_string_iff {body : List UInt8} : (Raw.string body).Counts n ↔
    ∃ s, bodyText body = .ok s ∧ Decimal.Writes (Text.trimChars s.toList) n ∧ n < 2 ^ 64 := by
  constructor
  · intro h
    cases h with
    | text hbody hfront hback hdigits h =>
      refine ⟨_, hbody, ?_, h⟩
      rwa [String.toList_ofList, Text.trimChars_padded hfront hback, trimChars_of_writes hdigits]
  · rintro ⟨s, hbody, hdigits, h⟩
    obtain ⟨front, back, hs, hfront, hback⟩ := Text.exists_padded s.toList
    rw [← String.ofList_toList (s := s), hs] at hbody
    exact .text hbody hfront hback hdigits h

theorem counter_string_eq_ok_iff {body : List UInt8} : (Raw.string body).counter = .ok n ↔
    ∃ s, bodyText body = .ok s ∧ Decimal.Writes (Text.trimChars s.toList) n ∧ n < 2 ^ 64 := by
  rw [Raw.counter, bind_eq_ok]
  refine exists_congr fun s => and_congr_right fun _ => ?_
  rw [← Decimal.unsigned?_eq_some_iff]
  cases Decimal.unsigned? 64 (Text.trimChars s.toList) <;> simp

/-! ### Counters -/

/-- What is read as a counter is one, and every counter is read. -/
theorem counter_eq_ok_iff {r : Raw} : r.counter = .ok n ↔ r.Counts n := by
  cases r with
  | string body => rw [counter_string_eq_ok_iff, counts_string_iff]
  | number num => rw [counter_number_eq_ok_iff, counts_number_iff]
  | _ =>
    refine iff_of_false (fun h => ?_) (fun h => ?_)
    · cases h
    · cases h

/-! ### Counters as they are written -/

/-- A fraction or an exponent makes a number no counter, whatever its value. -/
theorem not_counts_of_real {num : Numeral} (h : num.fraction ≠ [] ∨ num.exponent ≠ none) (n : Nat) :
    ¬ (Raw.number num).Counts n := by
  intro hn
  obtain ⟨heq, -⟩ := counts_number_iff.1 hn
  rw [heq] at h
  simp at h

/-- An integer is a counter without a minus sign, up to 64 bits. -/
theorem exists_integer (negative : Bool) (n : Nat) : ∃ r, Spells (sign negative ++ digitBytes n) r ∧
    ∀ m, r.Counts m ↔ negative = false ∧ m = n ∧ n < 2 ^ 64 := by
  refine ⟨_, spells_number (writes_digitBytes negative n), fun m => ?_⟩
  rw [counts_number_iff]
  simp only [magnitude_digitBytes, Numeral.mk.injEq, and_true]
  constructor
  · rintro ⟨hsign, rfl, h⟩
    exact ⟨hsign, rfl, h⟩
  · rintro ⟨hsign, rfl, h⟩
    exact ⟨hsign, rfl, h⟩

/-- A text is a counter if its digits are one after trimming. -/
theorem exists_text (s : String) : ∃ r, Spells (Value.encodeText s) r ∧
    ∀ m, r.Counts m ↔ Decimal.Writes (Text.trimChars s.toList) m ∧ m < 2 ^ 64 := by
  refine ⟨_, spells_text s, fun m => ?_⟩
  rw [counts_string_iff, bodyText_escaped]
  simp

/-- Whether a value is a counter: a whole number, or a text of digits with blanks around them. -/
inductive Value.Counts : Value → Nat → Prop
  | number {n : Nat} (h : n < 2 ^ 64) : Counts (.number (.whole n)) n
  | text {front digits back : List Char} {n : Nat} (hfront : ∀ c ∈ front, Text.isBlank c = true)
    (hback : ∀ c ∈ back, Text.isBlank c = true) (hdigits : Decimal.Writes digits n) (h : n < 2 ^ 64) :
    Counts (.string (String.ofList (front ++ digits ++ back))) n

/-- A counter is written as one. -/
theorem Value.Counts.exists_raw {v : Value} (h : v.Counts n) : ∃ r, Spells v.encode r ∧ r.Counts n := by
  cases h with
  | number h =>
    obtain ⟨r, hspells, hcounts⟩ := exists_integer false n
    rw [Value.encode]
    exact ⟨r, hspells, (hcounts n).2 ⟨rfl, rfl, h⟩⟩
  | text hfront hback hdigits h =>
    exact ⟨_, spells_string _, .text (bodyText_escaped _) hfront hback hdigits h⟩

end Groundwork.Json
