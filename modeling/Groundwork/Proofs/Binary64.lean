import Groundwork.Binary64
import Mathlib.Algebra.Order.Field.Power
import Mathlib.Algebra.Order.Floor.Semifield
import Mathlib.Data.Int.Log
import Mathlib.Data.Rat.Floor
import Mathlib.Tactic.FieldSimp
import Mathlib.Tactic.Linarith
import Mathlib.Tactic.Positivity

/-! Rounding keeps order: a greater exact result never gives a smaller number, whatever digits are lost.
And what is lost is a known part of the result. -/
namespace Groundwork

/-! ### Rounding to a whole number -/

namespace Decimal

/-- Whether a quotient rounds to a whole number, a tie going to the even one. -/
structure RoundsTo (q : ℚ) (n : ℕ) : Prop where
  low : n - 1 / 2 ≤ q
  high : q ≤ n + 1 / 2
  even_of_low : q = n - 1 / 2 → n % 2 = 0
  even_of_high : q = n + 1 / 2 → n % 2 = 0

variable {q q' : ℚ} {m n : ℕ}

theorem roundsTo_natCast (n : ℕ) : RoundsTo n n := by
  constructor
  · linarith
  · linarith
  · intro h
    linarith
  · intro h
    linarith

theorem RoundsTo.mono (hle : q ≤ q') (h : RoundsTo q m) (h' : RoundsTo q' n) : m ≤ n := by
  by_contra hlt
  have hstep : (n : ℚ) + 1 ≤ m := by exact_mod_cast Nat.lt_of_not_le hlt
  have hlow := h.low
  have hhigh := h'.high
  -- Both lie in the middle between two neighbours, and both neighbours would be even.
  have hm := h.even_of_low (by linarith)
  have hn := h'.even_of_high (by linarith)
  have hnext : (m : ℚ) = (n + 1 : ℕ) := by
    push_cast
    linarith
  have := Nat.cast_injective hnext
  omega

theorem RoundsTo.eq_of_lt (hlow : m - 1 / 2 < q) (hhigh : q < m + 1 / 2) (h : RoundsTo q n) : n = m := by
  have hless : (n : ℚ) < m + 1 := by linarith [h.low]
  have hmore : (m : ℚ) < n + 1 := by linarith [h.high]
  norm_cast at hless hmore
  omega

theorem roundsTo_nearestEven {num den : ℕ} (hden : 0 < den) :
    RoundsTo (num / den) (nearestEven num den) := by
  have hpos : (0 : ℚ) < den := by exact_mod_cast hden
  have hsplit : (num : ℚ) / den = (num / den : ℕ) + (num % den : ℕ) / den := by
    rw [eq_comm, add_div' _ _ _ hpos.ne', div_left_inj' hpos.ne']
    exact_mod_cast Nat.div_add_mod' num den
  have hrest : (0 : ℚ) ≤ (num % den : ℕ) / den := by positivity
  have hrest' : ((num % den : ℕ) : ℚ) / den < 1 :=
    (div_lt_one hpos).2 (by exact_mod_cast Nat.mod_lt num hden)
  have hbelow : 2 * (num % den) < den ↔ ((num % den : ℕ) : ℚ) / den < 1 / 2 := by
    rw [div_lt_div_iff₀ hpos two_pos, one_mul, mul_comm]
    exact_mod_cast Iff.rfl
  have habove : den < 2 * (num % den) ↔ 1 / 2 < ((num % den : ℕ) : ℚ) / den := by
    rw [div_lt_div_iff₀ two_pos hpos, one_mul, mul_comm]
    exact_mod_cast Iff.rfl
  rw [hsplit, nearestEven]
  simp only [hbelow, habove]
  generalize ((num % den : ℕ) : ℚ) / den = r at *
  split_ifs with hb ha he
  · exact ⟨by linarith, by linarith, fun h => by linarith, fun h => by linarith⟩
  · refine ⟨?_, ?_, fun h => ?_, fun h => ?_⟩ <;> push_cast at * <;> linarith
  · exact ⟨by linarith, by linarith, fun _ => he, fun _ => he⟩
  · have hodd : (num / den + 1) % 2 = 0 := by omega
    refine ⟨?_, ?_, fun _ => hodd, fun _ => hodd⟩ <;> push_cast <;> linarith

theorem nearestUp_eq_floor {num den : ℕ} (hden : 0 < den) :
    nearestUp num den = ⌊(num : ℚ) / den + 1 / 2⌋₊ := by
  rw [nearestUp, ← Nat.floor_div_eq_div (K := ℚ)]
  congr 1
  have hpos : (den : ℚ) ≠ 0 := by exact_mod_cast hden.ne'
  push_cast
  field_simp

end Decimal

namespace Binary64

open Decimal

/-- The number itself. -/
def value (x : Binary64) : ℚ := x.num / x.den

variable {x y z : Binary64} {num den num' den' : ℕ}

theorem den_pos (x : Binary64) : 0 < x.den := Nat.pow_pos Nat.two_pos

theorem value_nonneg (x : Binary64) : 0 ≤ x.value := by
  unfold value
  positivity

theorem value_pos_iff : 0 < x.value ↔ 0 < x.num := by
  rw [value, div_pos_iff_of_pos_right (by exact_mod_cast x.den_pos)]
  exact_mod_cast Iff.rfl

/-! ### The number nearest to a quotient -/

theorem cast_pow_two (k : ℕ) : ((Nat.pow 2 k : ℕ) : ℚ) = 2 ^ k := Nat.cast_pow 2 k

theorem zpow_eq_div (e : ℤ) : (2 : ℚ) ^ e = 2 ^ e.toNat / 2 ^ (-e).toNat := by
  rw [← zpow_natCast, ← zpow_natCast, ← zpow_sub₀ two_ne_zero]
  congr 1
  omega

theorem value_eq_mul_zpow (x : Binary64) : x.value = x.significand * (2 : ℚ) ^ x.exponent := by
  rw [zpow_eq_div, value, num, den, mul_div_assoc', Nat.cast_mul, cast_pow_two, cast_pow_two]

theorem div_scaled (num den : ℕ) (e : ℤ) :
    ((num * Nat.pow 2 (-e).toNat : ℕ) : ℚ) / (den * Nat.pow 2 e.toNat : ℕ) = num / den / 2 ^ e := by
  rw [zpow_eq_div, div_div_div_eq, Nat.cast_mul, Nat.cast_mul, cast_pow_two, cast_pow_two]

theorem log_eq {q : ℚ} {e : ℤ} (hlow : (2 : ℚ) ^ e ≤ q) (hhigh : q < 2 ^ (e + 1)) :
    Int.log 2 q = e := by
  have hpos : 0 < q := (zpow_pos two_pos e).trans_le hlow
  have hle : e ≤ Int.log 2 q :=
    (Int.zpow_le_iff_le_log Nat.one_lt_two hpos).1 (by exact_mod_cast hlow)
  have hlt : Int.log 2 q < e + 1 :=
    (Int.lt_zpow_iff_log_lt Nat.one_lt_two hpos).1 (by exact_mod_cast hhigh)
  omega

theorem leadingBit_eq_log (hnum : 0 < num) (hden : 0 < den) :
    leadingBit num den = Int.log 2 ((num : ℚ) / den) := by
  have hnumLow : (2 : ℚ) ^ num.log2 ≤ num := by exact_mod_cast Nat.log2_self_le hnum.ne'
  have hnumHigh : (num : ℚ) < 2 ^ (num.log2 + 1) := by exact_mod_cast Nat.lt_log2_self
  have hdenLow : (2 : ℚ) ^ den.log2 ≤ den := by exact_mod_cast Nat.log2_self_le hden.ne'
  have hdenHigh : (den : ℚ) < 2 ^ (den.log2 + 1) := by exact_mod_cast Nat.lt_log2_self
  have hpow (a b : ℕ) : (2 : ℚ) ^ ((a : ℤ) - b) = 2 ^ a / 2 ^ b := by
    rw [zpow_sub₀ two_ne_zero, zpow_natCast, zpow_natCast]
  have hlow : (2 : ℚ) ^ ((num.log2 : ℤ) - den.log2 - 1) ≤ num / den := by
    rw [sub_sub, ← Nat.cast_succ, hpow]
    gcongr
  have hhigh : (num : ℚ) / den < 2 ^ ((num.log2 : ℤ) - den.log2 + 1) := by
    rw [sub_add_eq_add_sub, ← Nat.cast_succ, hpow]
    gcongr
  have hbelow (e : ℤ) : num * Nat.pow 2 (-e).toNat < den * Nat.pow 2 e.toNat ↔
      (num : ℚ) / den < 2 ^ e := by
    have hpos : 0 < den * Nat.pow 2 e.toNat := Nat.mul_pos hden (Nat.pow_pos Nat.two_pos)
    rw [← div_lt_one (zpow_pos two_pos e : (0 : ℚ) < 2 ^ e), ← div_scaled,
      div_lt_one (by exact_mod_cast hpos)]
    exact_mod_cast Iff.rfl
  simp only [leadingBit, hbelow]
  split_ifs with hlt
  · exact (log_eq hlow (by rwa [sub_add_cancel])).symm
  · exact (log_eq (not_lt.1 hlt) hhigh).symm

/-- The exponent of the last significant bit. -/
def lastBit (q : ℚ) : ℤ := max (Int.log 2 q - 52) leastExponent

theorem lastBit_mono {q q' : ℚ} (hq : 0 < q) (hle : q ≤ q') : lastBit q ≤ lastBit q' :=
  max_le_max_right _ (Int.sub_le_sub_right (Int.log_mono_right hq hle) 52)

theorem div_lastBit_lt (q : ℚ) : q / 2 ^ lastBit q < 2 ^ 53 := by
  have hlog : q < (2 : ℚ) ^ (Int.log 2 q + 1) :=
    by exact_mod_cast Int.lt_zpow_succ_log_self Nat.one_lt_two q
  rw [div_lt_iff₀ (zpow_pos two_pos _), ← zpow_natCast, ← zpow_add₀ two_ne_zero]
  refine hlog.trans_le (zpow_le_zpow_right₀ one_le_two ?_)
  have := le_max_left (Int.log 2 q - 52) leastExponent
  rw [lastBit]
  omega

theorem le_div_lastBit {q : ℚ} (hq : 0 < q) (hleast : leastExponent < lastBit q) :
    2 ^ 52 ≤ q / 2 ^ lastBit q := by
  have hlog : (2 : ℚ) ^ Int.log 2 q ≤ q :=
    by exact_mod_cast Int.zpow_log_le_self Nat.one_lt_two hq
  rw [le_div_iff₀ (zpow_pos two_pos _), ← zpow_natCast, ← zpow_add₀ two_ne_zero]
  refine (zpow_le_zpow_right₀ one_le_two ?_).trans hlog
  rw [lastBit] at hleast ⊢
  omega

/-- A positive quotient is rounded to a whole number of units of its last significant bit. -/
theorem exists_value_nearest (hnum : 0 < num) (hden : 0 < den) :
    ∃ m : ℕ, RoundsTo ((num : ℚ) / den / 2 ^ lastBit (num / den)) m ∧
      (nearest num den).value = m * 2 ^ lastBit ((num : ℚ) / den) := by
  have hpos : 0 < den * Nat.pow 2 (lastBit ((num : ℚ) / den)).toNat :=
    Nat.mul_pos hden (Nat.pow_pos Nat.two_pos)
  refine ⟨_, div_scaled num den _ ▸ roundsTo_nearestEven hpos, ?_⟩
  rw [nearest, if_neg hnum.ne', leadingBit_eq_log hnum hden]
  simp only [lastBit]
  split_ifs with hcarry
  · rw [value_eq_mul_zpow, hcarry, zpow_add_one₀ two_ne_zero, cast_pow_two, cast_pow_two]
    ring
  · exact value_eq_mul_zpow _

theorem value_nearest_zero (den : ℕ) : (nearest 0 den).value = 0 := by
  rw [nearest, if_pos rfl, value_eq_mul_zpow, Nat.cast_zero, zero_mul]

theorem value_nearest_mono (hden : 0 < den) (hden' : 0 < den')
    (hle : (num : ℚ) / den ≤ num' / den') : (nearest num den).value ≤ (nearest num' den').value := by
  rcases Nat.eq_zero_or_pos num with rfl | hnum
  · rw [value_nearest_zero]
    exact value_nonneg _
  have hq : (0 : ℚ) < num / den := by positivity
  have hnum' : 0 < num' := by
    have := hq.trans_le hle
    rw [div_pos_iff_of_pos_right (by exact_mod_cast hden')] at this
    exact_mod_cast this
  obtain ⟨m, hm, hvalue⟩ := exists_value_nearest hnum hden
  obtain ⟨m', hm', hvalue'⟩ := exists_value_nearest hnum' hden'
  rw [hvalue, hvalue']
  generalize (num : ℚ) / den = q at *
  generalize (num' : ℚ) / den' = q' at *
  rcases (lastBit_mono hq hle).eq_or_lt with heq | hlt
  · rw [heq] at hm ⊢
    have : m ≤ m' := hm.mono (by gcongr) hm'
    gcongr
  · -- The greater quotient has a greater last bit, so it is not below the leading bit that the
    -- smaller one is carried to at most.
    have hcarried : m ≤ 2 ^ 53 :=
      hm.mono (by exact_mod_cast (div_lastBit_lt q).le) (roundsTo_natCast _)
    have hleast : leastExponent < lastBit q' := (le_max_right _ _).trans_lt hlt
    have hleading : 2 ^ 52 ≤ m' :=
      (roundsTo_natCast _).mono (by exact_mod_cast le_div_lastBit (hq.trans_le hle) hleast) hm'
    calc (m : ℚ) * 2 ^ lastBit q ≤ 2 ^ 53 * 2 ^ lastBit q := by gcongr; exact_mod_cast hcarried
      _ = 2 ^ 52 * 2 ^ (lastBit q + 1) := by rw [zpow_add_one₀ two_ne_zero]; ring
      _ ≤ 2 ^ 52 * 2 ^ lastBit q' := by gcongr; exacts [one_le_two, hlt]
      _ ≤ m' * 2 ^ lastBit q' := by gcongr; exact_mod_cast hleading

/-! ### The operations -/

theorem value_ofNat_mono {m n : ℕ} (hle : m ≤ n) : (ofNat m).value ≤ (ofNat n).value := by
  apply value_nearest_mono Nat.one_pos Nat.one_pos
  gcongr

theorem value_ofNat_pos {n : ℕ} (hn : 0 < n) : 0 < (ofNat n).value :=
  (value_pos_iff.2 (by decide : 0 < (ofNat 1).num)).trans_le (value_ofNat_mono hn)

theorem value_mul_mono (hle : x.value ≤ y.value) : (x.mul z).value ≤ (y.mul z).value := by
  apply value_nearest_mono (Nat.mul_pos x.den_pos z.den_pos) (Nat.mul_pos y.den_pos z.den_pos)
  push_cast
  rw [mul_div_mul_comm, mul_div_mul_comm]
  exact mul_le_mul_of_nonneg_right hle z.value_nonneg

theorem cast_div_eq (x z : Binary64) :
    ((x.num * z.den : ℕ) : ℚ) / (x.den * z.num : ℕ) = x.value / z.value := by
  rw [value, value, div_div_div_eq]
  push_cast
  rfl

theorem value_div_mono (hz : 0 < z.value) (hle : x.value ≤ y.value) :
    (x.div z).value ≤ (y.div z).value := by
  have hnum := value_pos_iff.1 hz
  apply value_nearest_mono (Nat.mul_pos x.den_pos hnum) (Nat.mul_pos y.den_pos hnum)
  rw [cast_div_eq, cast_div_eq]
  exact div_le_div_of_nonneg_right hle hz.le

theorem value_div_anti (hx : 0 < x.value) (hle : x.value ≤ y.value) :
    (z.div y).value ≤ (z.div x).value := by
  have hnum := value_pos_iff.1 hx
  have hnum' := value_pos_iff.1 (hx.trans_le hle)
  apply value_nearest_mono (Nat.mul_pos z.den_pos hnum') (Nat.mul_pos z.den_pos hnum)
  rw [cast_div_eq, cast_div_eq]
  exact div_le_div_of_nonneg_left z.value_nonneg hx hle

theorem value_round_mono (hle : x.value ≤ y.value) : x.round.value ≤ y.round.value := by
  apply value_ofNat_mono
  rw [nearestUp_eq_floor x.den_pos, nearestUp_eq_floor y.den_pos]
  exact Nat.floor_mono (add_le_add_left hle _)

theorem value_min (x y : Binary64) : (x.min y).value = min x.value y.value := by
  have hle : x.num * y.den ≤ y.num * x.den ↔ x.value ≤ y.value := by
    rw [value, value, div_le_div_iff₀ (by exact_mod_cast x.den_pos) (by exact_mod_cast y.den_pos)]
    exact_mod_cast Iff.rfl
  rw [Binary64.min, min_def]
  simp only [hle, apply_ite value]

theorem roundsTo_toPlaces (places : ℕ) (x : Binary64) :
    RoundsTo (x.value * 10 ^ places) (x.toPlaces places) := by
  have := @roundsTo_nearestEven (x.num * Nat.pow 10 places) x.den x.den_pos
  rwa [Nat.cast_mul, mul_div_right_comm, show ((Nat.pow 10 places : ℕ) : ℚ) = 10 ^ places from
    Nat.cast_pow 10 places] at this

theorem toPlaces_mono {places : ℕ} (hle : x.value ≤ y.value) :
    x.toPlaces places ≤ y.toPlaces places :=
  (roundsTo_toPlaces places x).mono (by gcongr) (roundsTo_toPlaces places y)

/-! ### How much is missed -/

variable {c d p q v w : ℚ}

/-- Whether a value is another one but for a factor. -/
structure Near (c v q : ℚ) : Prop where
  low : q ≤ v * c
  high : v ≤ q * c

/-- The factor by which a single rounding may miss. -/
def slip : ℚ := 1 + 1 / 2 ^ 52

theorem slip_nonneg : 0 ≤ slip := by norm_num [slip]

theorem near_nearest (hnum : 0 < num) (hden : 0 < den)
    (hleast : leastExponent < lastBit ((num : ℚ) / den)) :
    Near slip (nearest num den).value (num / den) := by
  obtain ⟨m, hm, hvalue⟩ := exists_value_nearest hnum hden
  have hlead := le_div_lastBit (by positivity) hleast
  have hunit : (0 : ℚ) < 2 ^ lastBit ((num : ℚ) / den) := zpow_pos two_pos _
  have hlow := hm.low
  have hhigh := hm.high
  rw [hvalue]
  generalize (2 : ℚ) ^ lastBit ((num : ℚ) / den) = u at *
  obtain ⟨r, hr⟩ : ∃ r, (num : ℚ) / den / u = r := ⟨_, rfl⟩
  rw [hr] at hlow hhigh hlead
  have hwhole : (num : ℚ) / den = r * u := by rw [← hr, div_mul_cancel₀ _ hunit.ne']
  rw [hwhole, slip]
  -- The half of a unit that is missed is a part in `2 ^ 53` of the quotient at most.
  constructor
  · rw [mul_right_comm]
    exact mul_le_mul_of_nonneg_right (by linarith) hunit.le
  · rw [mul_right_comm]
    exact mul_le_mul_of_nonneg_right (by linarith) hunit.le

namespace Near

theorem refl (q : ℚ) : Near 1 q q := ⟨(mul_one q).ge, (mul_one q).ge⟩

theorem trans (hc : 0 ≤ c) (hd : 0 ≤ d) (h : Near c v w) (h' : Near d w q) : Near (c * d) v q where
  low := calc
    q ≤ w * d := h'.low
    _ ≤ v * c * d := mul_le_mul_of_nonneg_right h.low hd
    _ = v * (c * d) := mul_assoc _ _ _
  high := calc
    v ≤ w * c := h.high
    _ ≤ q * d * c := mul_le_mul_of_nonneg_right h'.high hc
    _ = q * (c * d) := by ring

theorem mul_const (hp : 0 ≤ p) (h : Near c v q) : Near c (v * p) (q * p) where
  low := calc
    q * p ≤ v * c * p := mul_le_mul_of_nonneg_right h.low hp
    _ = v * p * c := by ring
  high := calc
    v * p ≤ q * c * p := mul_le_mul_of_nonneg_right h.high hp
    _ = q * p * c := by ring

theorem ratio (hw : 0 < w) (hp : 0 < p) (hv : 0 ≤ v) (hq : 0 ≤ q) (h : Near c v q)
    (h' : Near d w p) : Near (c * d) (v / w) (q / p) where
  low := by
    rw [div_mul_eq_mul_div, div_le_div_iff₀ hp hw]
    calc q * w ≤ v * c * (p * d) := mul_le_mul h.low h'.high hw.le (hq.trans h.low)
      _ = v * (c * d) * p := by ring
  high := by
    rw [div_mul_eq_mul_div, div_le_div_iff₀ hw hp]
    calc v * p ≤ q * c * (w * d) := mul_le_mul h.high h'.low hp.le (hv.trans h.high)
      _ = q * (c * d) * w := by ring

/-- One rounding more. The value is not so small that it would have fewer significant bits. -/
theorem nearest (hden : 0 < den) (hc : 0 ≤ c) (hc' : c ≤ 2) (hq : 1 / 2 ^ 100 ≤ q)
    (h : Near c (num / den) q) : Near (slip * c) (nearest num den).value q := by
  have hleast : (2 : ℚ) ^ (-101 : ℤ) ≤ num / den := by
    have := h.low.trans (mul_le_mul_of_nonneg_left hc' (by positivity))
    norm_num at hq ⊢
    linarith
  have hpos : (0 : ℚ) < num / den := (zpow_pos two_pos _).trans_le hleast
  have hnum : 0 < num := by
    rw [div_pos_iff_of_pos_right (by exact_mod_cast hden)] at hpos
    exact_mod_cast hpos
  have hlog : -101 ≤ Int.log 2 ((num : ℚ) / den) :=
    (Int.zpow_le_iff_le_log Nat.one_lt_two hpos).1 (by exact_mod_cast hleast)
  refine (near_nearest hnum hden ?_).trans slip_nonneg hc h
  rw [lastBit, leastExponent]
  omega

theorem ofNat {n : ℕ} (hn : 0 < n) : Near slip (ofNat n).value n := by
  have hone : (1 : ℚ) / 2 ^ 100 ≤ n := by
    have : (1 : ℚ) ≤ n := by exact_mod_cast hn
    exact le_trans (by norm_num) this
  have hself : Near 1 ((n : ℚ) / (1 : ℕ)) n := by
    rw [Nat.cast_one, div_one]
    exact .refl _
  exact mul_one slip ▸ hself.nearest Nat.one_pos zero_le_one one_le_two hone

theorem mul (hc : 0 ≤ c) (hc' : c ≤ 2) (hq : 1 / 2 ^ 100 ≤ q * z.value) (h : Near c x.value q) :
    Near (slip * c) (x.mul z).value (q * z.value) := by
  refine Near.nearest (Nat.mul_pos x.den_pos z.den_pos) hc hc' hq ?_
  push_cast
  rw [mul_div_mul_comm]
  exact h.mul_const z.value_nonneg

theorem div (hc : 0 ≤ c) (hc' : c ≤ 2) (hz : 0 < z.value) (hq : 1 / 2 ^ 100 ≤ q)
    (h : Near c (x.value / z.value) q) : Near (slip * c) (x.div z).value q := by
  refine Near.nearest (Nat.mul_pos x.den_pos (value_pos_iff.1 hz)) hc hc' hq ?_
  rwa [cast_div_eq]

end Near

theorem value_hundred : (ofNat 100).value = 100 := by
  have hnum : (ofNat 100).num = 100 * 2 ^ 46 := by decide +kernel
  have hden : (ofNat 100).den = 2 ^ 46 := by decide +kernel
  rw [value, hnum, hden]
  norm_num

end Binary64

end Groundwork
