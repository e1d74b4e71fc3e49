import Groundwork.Decimal
import Groundwork.Proofs.Text
import Mathlib.Algebra.Ring.Nat

/-! Whole numbers in decimal notation. A reader of numbers accepts what writes one, and a number is read
back from the digits that are printed for it. -/
namespace Groundwork.Decimal

variable {cs : List Char} {n m bits : Nat}

/-- Whether characters are the digits of a number. -/
structure Digits (cs : List Char) (n : Nat) : Prop where
  ne_nil : cs ≠ []
  digit : ∀ c ∈ cs, isDigit c = true
  value_eq : value cs = n

/-- Whether characters write a number: its digits, perhaps after a plus sign. -/
inductive Writes : List Char → Nat → Prop
  | plain {cs : List Char} {n : Nat} (h : Digits cs n) : Writes cs n
  | plus {cs : List Char} {n : Nat} (h : Digits cs n) : Writes ('+' :: cs) n

/-- Whether a character may stand in a number. -/
def IsNumeric (c : Char) : Prop := isDigit c = true ∨ c = '+'

theorem isDigit_iff {c : Char} : isDigit c = true ↔ 48 ≤ c.toNat ∧ c.toNat ≤ 57 := by
  simp only [isDigit, Bool.and_eq_true, decide_eq_true_eq, Char.le_def, UInt32.le_iff_toNat_le]
  rfl

theorem IsNumeric.not_isBlank {c : Char} (h : IsNumeric c) : Text.isBlank c = false := by
  rcases h with h | rfl
  · have hrange := isDigit_iff.1 h
    simp only [Text.isBlank, Bool.or_eq_false_iff, Bool.and_eq_false_iff, decide_eq_false_iff_not,
      beq_eq_false_iff_ne]
    omega
  · rfl

theorem Digits.head_ne_plus (h : Digits cs n) (rest : List Char) : cs ≠ '+' :: rest := by
  rintro rfl
  exact absurd (h.digit '+' List.mem_cons_self) (by decide)

theorem Writes.isNumeric (h : Writes cs n) : ∀ c ∈ cs, IsNumeric c := by
  cases h with
  | plain h => exact fun c hc => .inl (h.digit c hc)
  | plus h => exact List.forall_mem_cons.2 ⟨.inr rfl, fun c hc => .inl (h.digit c hc)⟩

theorem Writes.ne_nil (h : Writes cs n) : cs ≠ [] := by
  cases h with
  | plain h => exact h.ne_nil
  | plus h => exact List.cons_ne_nil _ _

/-- What is written is one number. -/
theorem Writes.unique (h : Writes cs n) (h' : Writes cs m) : n = m := by
  cases h with
  | plain h =>
    cases h' with
    | plain h' => exact h.value_eq.symm.trans h'.value_eq
    | plus h' => exact (h.head_ne_plus _ rfl).elim
  | plus h =>
    cases h' with
    | plain h' => exact (h'.head_ne_plus _ rfl).elim
    | plus h' => exact h.value_eq.symm.trans h'.value_eq

/-! ### The reader -/

theorem digits_iff : Digits cs n ↔ (cs.isEmpty || !cs.all isDigit) = false ∧ value cs = n := by
  rw [Bool.or_eq_false_iff, List.isEmpty_eq_false_iff, Bool.not_eq_false', List.all_eq_true]
  constructor
  · rintro ⟨hne, hdigit, hvalue⟩
    exact ⟨⟨hne, hdigit⟩, hvalue⟩
  · rintro ⟨⟨hne, hdigit⟩, hvalue⟩
    exact ⟨hne, hdigit, hvalue⟩

/-- The digits that are read, and the number if it is not too great. -/
theorem read_eq_some_iff : (if cs.isEmpty || !cs.all isDigit then none
      else if value cs < Nat.pow 2 bits then some (value cs) else none) = some n ↔
    Digits cs n ∧ n < 2 ^ bits := by
  have hpow : Nat.pow 2 bits = 2 ^ bits := rfl
  rw [digits_iff, hpow]
  split
  · next hbad => simp [hbad]
  · next hgood =>
    split
    · next hsmall =>
      simp only [Option.some.injEq, eq_false_of_ne_true hgood, true_and]
      constructor
      · rintro rfl
        exact ⟨rfl, hsmall⟩
      · exact fun h => h.1
    · next hbig =>
      simp only [reduceCtorEq, eq_false_of_ne_true hgood, true_and, false_iff, not_and]
      rintro rfl
      exact hbig

theorem unsigned?_eq_some_iff : unsigned? bits cs = some n ↔ Writes cs n ∧ n < 2 ^ bits := by
  unfold unsigned?
  split
  · next rest =>
    refine read_eq_some_iff.trans (and_congr_left fun _ => ⟨.plus, fun h => ?_⟩)
    cases h with
    | plain h => exact (h.head_ne_plus _ rfl).elim
    | plus h => exact h
  · next hplain =>
    refine read_eq_some_iff.trans (and_congr_left fun _ => ⟨.plain, fun h => ?_⟩)
    cases h with
    | plain h => exact h
    | plus h => exact (hplain _ rfl).elim

/-! ### Printed numbers -/

theorem value_eq_ofDigitChars (cs : List Char) : value cs = Nat.ofDigitChars 10 cs 0 := by
  rw [value, Nat.ofDigitChars]
  congr 1
  funext n c
  rw [Nat.mul_comm]
  rfl

theorem digits_toString (n : Nat) : Digits (toString n).toList n := by
  rw [Nat.toString_eq_ofList_toDigits, String.toList_ofList]
  refine ⟨Nat.toDigits_ne_nil, ?_, ?_⟩
  · exact fun c hc => Nat.isDigit_of_mem_toDigits (by decide) (by decide) hc
  · rw [value_eq_ofDigitChars, Nat.ofDigitChars_ten_toDigits]

theorem length_toString_le_iff {places : Nat} (h : 0 < places) :
    (toString n).toList.length ≤ places ↔ n < 10 ^ places := by
  rw [Nat.toString_eq_ofList_toDigits, String.toList_ofList]
  exact Nat.length_toDigits_le_iff (by decide) h

theorem value_append (cs ds : List Char) :
    value (cs ++ ds) = value cs * 10 ^ ds.length + value ds := by
  simp only [value_eq_ofDigitChars, Nat.ofDigitChars_append]
  rw [Nat.ofDigitChars_eq_ofDigitChars_zero, Nat.mul_comm]

/-- The digits of a number after as many zeros as fill the places. -/
def zeroFilled (places n : Nat) : List Char :=
  List.replicate (places - (toString n).length) '0' ++ (toString n).toList

theorem digits_zeroFilled (places n : Nat) : Digits (zeroFilled places n) n := by
  obtain ⟨hne, hdigit, hvalue⟩ := digits_toString n
  refine ⟨List.append_ne_nil_of_right_ne_nil _ hne, fun c hc => ?_, ?_⟩
  · rcases List.mem_append.1 hc with hzero | hc
    · rw [List.eq_of_mem_replicate hzero]
      rfl
    · exact hdigit c hc
  · rw [zeroFilled, value_append, hvalue, value_eq_ofDigitChars, Nat.ofDigitChars_replicate_zero,
      Nat.mul_zero, Nat.zero_mul, Nat.zero_add]

theorem length_zeroFilled {places : Nat} (hplaces : 0 < places) (h : n < 10 ^ places) :
    (zeroFilled places n).length = places := by
  have hle := (length_toString_le_iff hplaces).2 h
  rw [String.length_toList] at hle
  rw [zeroFilled, List.length_append, List.length_replicate, String.length_toList]
  omega

theorem toList_fixed (places n : Nat) : (fixed places n).toList =
    (toString (n / 10 ^ places)).toList ++ '.' :: zeroFilled places (n % 10 ^ places) := by
  simp only [fixed, zeroFilled, String.toList_append, String.toList_ofList, List.append_assoc]
  rfl

end Groundwork.Decimal
