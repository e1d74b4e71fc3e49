import Groundwork.Json.Number
import Groundwork.Proofs.Bytes
import Groundwork.Proofs.Decimal

/-! Integers in JSON documents. What is written for a number that came from an integer is read back as the
same number. -/
namespace Groundwork.Json

open Raw

/-! ### Integers -/

/-- The number that digits write. -/
def magnitude (digits : List UInt8) : Nat := digits.foldl (fun n b => n * 10 + (b.toNat - 48)) 0

namespace Numeral

/-- Whether a numeral is an integer of 64 bits, with a sign or without. -/
structure IsInteger (n : Numeral) : Prop where
  no_fraction : n.fraction = []
  no_exponent : n.exponent = none
  in_range : magnitude n.whole ≤ if n.negative then 2 ^ 63 else 2 ^ 64 - 1

end Numeral

/-- The numbers that integers stand for. A zero with a minus sign is kept apart from the whole ones. -/
inductive Number.IsInteger : Number → Prop
  | nonneg {n : Nat} (h : n < 2 ^ 64) : IsInteger (.whole n)
  | neg {n : Nat} (hpos : 0 < n) (h : n ≤ 2 ^ 63) : IsInteger (.whole (-n))
  | negativeZero : IsInteger (.real true ⟨0, Binary64.leastExponent⟩)

theorem foldl_digits_ge (n : Nat) (digits : List UInt8) :
    n ≤ digits.foldl (fun n b => n * 10 + (b.toNat - 48)) n := by
  induction digits generalizing n with
  | nil => exact Nat.le_refl n
  | cons b digits ih => exact Nat.le_trans (by omega) (ih (n * 10 + (b.toNat - 48)))

theorem takeSignificand_of_lt {n : Nat} {digits : List UInt8}
    (h : digits.foldl (fun n b => n * 10 + (b.toNat - 48)) n < 2 ^ 64) :
    takeSignificand n digits = (digits.foldl (fun n b => n * 10 + (b.toNat - 48)) n, []) := by
  induction digits generalizing n with
  | nil => rfl
  | cons b digits ih =>
    have hfits : n * 10 + (b.toNat - 48) < Nat.pow 2 64 :=
      Nat.lt_of_le_of_lt (foldl_digits_ge _ digits) h
    simp only [takeSignificand, if_pos hfits]
    exact ih h

theorem takeSignificand_magnitude {digits : List UInt8} (h : magnitude digits < 2 ^ 64) :
    takeSignificand 0 digits = (magnitude digits, []) :=
  takeSignificand_of_lt h

theorem number_nonneg {digits : List UInt8} (h : magnitude digits < 2 ^ 64) :
    Numeral.number ⟨false, digits, [], none⟩ = .ok (.whole (magnitude digits)) := by
  simp [Numeral.number, takeSignificand_magnitude h]

theorem number_neg {digits : List UInt8} (hpos : 0 < magnitude digits) (h : magnitude digits ≤ 2 ^ 63) :
    Numeral.number ⟨true, digits, [], none⟩ = .ok (.whole (-(magnitude digits : Int))) := by
  have hfits : magnitude digits ≤ Nat.pow 2 63 := h
  have hsmall : magnitude digits < 2 ^ 64 := Nat.lt_of_le_of_lt h (by decide)
  simp [Numeral.number, takeSignificand_magnitude hsmall, hpos, hfits]

theorem number_negativeZero {digits : List UInt8} (h : magnitude digits = 0) :
    Numeral.number ⟨true, digits, [], none⟩ = .ok (.real true ⟨0, Binary64.leastExponent⟩) := by
  have hsmall : magnitude digits < 2 ^ 64 := by omega
  have hscale : scale 8 (Binary64.ofNat 0) 0 = .ok ⟨0, Binary64.leastExponent⟩ := rfl
  simp only [Numeral.number, Numeral.real, Numeral.parts, takeSignificand_magnitude hsmall, h]
  simp [takeSignificand, hscale]
  rfl

/-- An integer is read as a number that it stands for. -/
theorem Numeral.IsInteger.exists_number {n : Numeral} (h : n.IsInteger) :
    ∃ v, n.number = .ok v ∧ v.IsInteger := by
  obtain ⟨negative, whole, fraction, exponent⟩ := n
  obtain ⟨hfraction, hexponent, hrange⟩ := h
  simp only at hfraction hexponent hrange
  subst hfraction hexponent
  cases negative with
  | false =>
    have hmost : magnitude whole ≤ 2 ^ 64 - 1 := hrange
    have hsmall : magnitude whole < 2 ^ 64 := by omega
    exact ⟨_, number_nonneg hsmall, .nonneg hsmall⟩
  | true =>
    rcases Nat.eq_zero_or_pos (magnitude whole) with hzero | hpos
    · exact ⟨_, number_negativeZero hzero, .negativeZero⟩
    · exact ⟨_, number_neg hpos hrange, .neg hpos hrange⟩

/-! ### Digits -/

/-- The bytes of the digits of a number. -/
def digitBytes (n : Nat) : List UInt8 := (toString n).toUTF8.toList

theorem digitBytes_eq (n : Nat) : digitBytes n = (toString n).toList.map fun c => c.toNat.toUInt8 := by
  rw [digitBytes, Bytes.toList_toUTF8, List.map_eq_flatMap]
  refine List.flatMap_congr fun c hc => ?_
  have hrange := Decimal.isDigit_iff.1 ((Decimal.digits_toString n).digit c hc)
  exact Bytes.utf8EncodeChar_of_lt (by omega)

theorem toNat_digit {c : Char} (h : Decimal.isDigit c = true) : c.toNat.toUInt8.toNat = c.toNat := by
  have hrange := Decimal.isDigit_iff.1 h
  exact Nat.mod_eq_of_lt (by omega)

theorem isDigit_of_mem_digitBytes {n : Nat} {b : UInt8} (h : b ∈ digitBytes n) :
    Raw.isDigit b = true := by
  rw [digitBytes_eq] at h
  obtain ⟨c, hc, rfl⟩ := List.mem_map.1 h
  have hdigit := (Decimal.digits_toString n).digit c hc
  have hrange := Decimal.isDigit_iff.1 hdigit
  simp only [Raw.isDigit, Bool.and_eq_true, decide_eq_true_eq, UInt8.le_iff_toNat_le, toNat_digit hdigit]
  exact hrange

theorem magnitude_digitBytes (n : Nat) : magnitude (digitBytes n) = n := by
  have hdigits := Decimal.digits_toString n
  rw [digitBytes_eq, magnitude, List.foldl_map]
  refine (List.foldl_ext _ _ 0 fun m c hc => ?_).trans hdigits.value_eq
  rw [toNat_digit (hdigits.digit c hc)]

theorem head_toDigits {n : Nat} (hn : n ≠ 0) : (Nat.toDigits 10 n).head? ≠ some '0' := by
  induction n using Nat.strong_induction_on with
  | _ n ih =>
    rcases Nat.lt_or_ge n 10 with hlt | hge
    · have hdigit : ∀ k < 10, k ≠ 0 → k.digitChar ≠ '0' := by decide
      rw [Nat.toDigits_of_lt_base hlt]
      simpa using hdigit n hlt hn
    · rw [Nat.toDigits_of_base_le (by decide) hge, List.head?_append_of_ne_nil _ Nat.toDigits_ne_nil]
      exact ih (n / 10) (Nat.div_lt_self (by omega) (by decide)) (by omega)

theorem digitBytes_ne_nil (n : Nat) : digitBytes n ≠ [] := by
  rw [digitBytes_eq]
  exact mt List.map_eq_nil_iff.1 (Decimal.digits_toString n).ne_nil

/-- Digits with a leading zero are written for no number except zero. -/
theorem digitBytes_head (n : Nat) :
    ((digitBytes n).isEmpty || ((digitBytes n).head? == some 0x30 && (digitBytes n).length != 1)) =
      false := by
  rw [Bool.or_eq_false_iff, List.isEmpty_eq_false_iff, Bool.and_eq_false_iff, beq_eq_false_iff_ne]
  refine ⟨digitBytes_ne_nil n, ?_⟩
  rcases Nat.eq_zero_or_pos n with rfl | hpos
  · exact .inr (by decide +kernel)
  · left
    rw [digitBytes_eq, List.head?_map]
    intro hzero
    obtain ⟨c, hc, hbyte⟩ := Option.map_eq_some_iff.1 hzero
    have hdigit := (Decimal.digits_toString n).digit c (List.mem_of_head? hc)
    have hchar : c = '0' := Char.toNat_inj.1 ((toNat_digit hdigit).symm.trans (congrArg _ hbyte))
    rw [Nat.toString_eq_ofList_toDigits, String.toList_ofList, hchar] at hc
    exact head_toDigits hpos.ne' hc

/-! ### Numerals -/

/-- Whether bytes do not go on with a number. -/
def Closed (rest : List UInt8) : Prop :=
  ∀ b ∈ rest.head?, Raw.isDigit b = false ∧ b ≠ 0x2E ∧ b ≠ 0x65 ∧ b ≠ 0x45

variable {rest digits : List UInt8}

theorem closed_nil : Closed [] := fun _ h => by cases h

theorem Closed.takeWhile (h : Closed rest) (hdigits : ∀ b ∈ digits, Raw.isDigit b = true) :
    (digits ++ rest).takeWhile Raw.isDigit = digits := by
  rw [List.takeWhile_append_of_pos hdigits]
  cases rest with
  | nil => exact List.append_nil _
  | cons b rest => rw [List.takeWhile_cons_of_neg (by simp [(h b rfl).1]), List.append_nil]

theorem Closed.dropWhile (h : Closed rest) (hdigits : ∀ b ∈ digits, Raw.isDigit b = true) :
    (digits ++ rest).dropWhile Raw.isDigit = rest := by
  rw [List.dropWhile_append_of_pos hdigits]
  cases rest with
  | nil => rfl
  | cons b rest => exact List.dropWhile_cons_of_neg (by simp [(h b rfl).1])

theorem Closed.fraction? (h : Closed rest) : Raw.fraction? rest = some ([], rest) := by
  cases rest with
  | nil => rfl
  | cons b rest => exact if_neg (h b rfl).2.1

theorem Closed.exponent? (h : Closed rest) : Raw.exponent? rest = some (none, rest) := by
  cases rest with
  | nil => rfl
  | cons b rest => exact if_neg (by simp [h b rfl])

/-- The minus sign of a negative number. -/
def sign (negative : Bool) : List UInt8 := if negative then [0x2D] else []

theorem numeral?_signed {negative : Bool} {body whole fraction more rest : List UInt8}
    {exponent : Option (Bool × List UInt8)} (hbody : body.head? ≠ some 0x2D)
    (hwhole : body.takeWhile Raw.isDigit = whole)
    (hproper : (whole.isEmpty || (whole.head? == some 0x30 && whole.length != 1)) = false)
    (hfraction : Raw.fraction? (body.dropWhile Raw.isDigit) = some (fraction, more))
    (hexponent : Raw.exponent? more = some (exponent, rest)) :
    numeral? (sign negative ++ body) = some (⟨negative, whole, fraction, exponent⟩, rest) := by
  unfold numeral?
  split
  next negative' body' hsign =>
    have hsplit : (negative', body') = (negative, body) := by
      rw [← hsign]
      cases negative with
      | true => rfl
      | false =>
        split
        · next hminus => exact (hbody (congrArg List.head? hminus)).elim
        · rfl
    obtain ⟨rfl, rfl⟩ := Prod.mk.inj hsplit
    simp only [hwhole, hproper, hfraction, hexponent, Option.bind_eq_bind, Option.bind_some]
    exact if_neg Bool.false_ne_true

theorem numeral?_digitBytes (negative : Bool) (n : Nat) (h : Closed rest) :
    numeral? (sign negative ++ (digitBytes n ++ rest)) =
      some (⟨negative, digitBytes n, [], none⟩, rest) := by
  have hdigits : ∀ b ∈ digitBytes n, Raw.isDigit b = true := fun b => isDigit_of_mem_digitBytes
  refine numeral?_signed ?_ (h.takeWhile hdigits) (digitBytes_head n) ?_ h.exponent?
  · rw [List.head?_append_of_ne_nil _ (digitBytes_ne_nil n)]
    exact fun hminus => absurd (hdigits _ (List.mem_of_head? hminus)) (by decide)
  · rw [h.dropWhile hdigits, h.fraction?]

theorem numeral?_negativeZero (h : Closed rest) :
    numeral? (sign true ++ (0x30 :: 0x2E :: 0x30 :: rest)) =
      some (⟨true, [0x30], [0x30], none⟩, rest) := by
  have hzero : ∀ b ∈ [0x30], Raw.isDigit b = true := List.forall_mem_singleton.2 rfl
  have htake : (0x30 :: rest).takeWhile Raw.isDigit = [0x30] := h.takeWhile hzero
  have hdrop : (0x30 :: rest).dropWhile Raw.isDigit = rest := h.dropWhile hzero
  have hwhole : (0x30 :: 0x2E :: 0x30 :: rest).takeWhile Raw.isDigit = [0x30] := by
    rw [List.takeWhile_cons_of_pos (by decide), List.takeWhile_cons_of_neg (by decide)]
  have hpoint : (0x30 :: 0x2E :: 0x30 :: rest).dropWhile Raw.isDigit = 0x2E :: 0x30 :: rest := by
    rw [List.dropWhile_cons_of_pos (by decide), List.dropWhile_cons_of_neg (by decide)]
  refine numeral?_signed (fun hminus => by cases hminus) hwhole rfl ?_ h.exponent?
  rw [hpoint, Raw.fraction?, if_pos rfl, htake, hdrop]
  rfl

/-! ### Round trip -/

/-- The bytes of a number. -/
def Number.bytes (v : Number) : List UInt8 := v.text.toUTF8.toList

theorem bytes_nonneg (n : Nat) : (Number.whole n).bytes = sign false ++ digitBytes n := rfl

theorem bytes_neg {n : Nat} (hpos : 0 < n) :
    (Number.whole (-n)).bytes = sign true ++ digitBytes n := by
  obtain ⟨k, rfl⟩ := Nat.exists_eq_succ_of_ne_zero hpos.ne'
  have hminus : "-".toUTF8.toList = [0x2D] := by decide +kernel
  change ("-" ++ toString (k + 1)).toUTF8.toList = _
  rw [Bytes.toList_toUTF8_append, hminus]
  rfl

/-- Whether bytes are read as one numeral, whatever stands after them. -/
structure WritesNumeral (bytes : List UInt8) (n : Numeral) : Prop where
  head : ∃ b tail, bytes = b :: tail ∧ (b = 0x2D ∨ Raw.isDigit b = true)
  reads : ∀ rest, Closed rest → numeral? (bytes ++ rest) = some (n, rest)

theorem writes_digitBytes (negative : Bool) (n : Nat) :
    WritesNumeral (sign negative ++ digitBytes n) ⟨negative, digitBytes n, [], none⟩ := by
  constructor
  · cases negative with
    | true => exact ⟨_, _, rfl, .inl rfl⟩
    | false =>
      obtain ⟨b, tail, hb⟩ := List.exists_cons_of_ne_nil (digitBytes_ne_nil n)
      exact ⟨b, tail, hb, .inr (isDigit_of_mem_digitBytes (hb ▸ List.mem_cons_self))⟩
  · intro rest h
    rw [List.append_assoc]
    exact numeral?_digitBytes negative n h

theorem Number.IsInteger.exists_numeral {v : Number} (h : v.IsInteger) :
    ∃ n : Numeral, WritesNumeral v.bytes n ∧ n.number = .ok v := by
  cases h with
  | @nonneg n h =>
    have hnumber := number_nonneg ((magnitude_digitBytes n).symm ▸ h)
    rw [magnitude_digitBytes] at hnumber
    exact ⟨_, bytes_nonneg n ▸ writes_digitBytes false n, hnumber⟩
  | @neg n hpos h =>
    have hnumber := number_neg ((magnitude_digitBytes n).symm ▸ hpos) ((magnitude_digitBytes n).symm ▸ h)
    rw [magnitude_digitBytes] at hnumber
    exact ⟨_, bytes_neg hpos ▸ writes_digitBytes true n, hnumber⟩
  | negativeZero =>
    have hbytes : (Number.real true ⟨0, Binary64.leastExponent⟩).bytes = [0x2D, 0x30, 0x2E, 0x30] := by
      decide +kernel
    refine ⟨⟨true, [0x30], [0x30], none⟩, ⟨⟨_, _, hbytes, .inl rfl⟩, fun rest hrest => ?_⟩, rfl⟩
    rw [hbytes]
    exact numeral?_negativeZero hrest

end Groundwork.Json
