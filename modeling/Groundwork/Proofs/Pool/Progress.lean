import Groundwork.Pool
import Groundwork.Proofs.Binary64
import Groundwork.Proofs.Decimal
import Mathlib.Algebra.Order.Group.MinMax

/-! What a scan shows of its progress: two places of a percentage that stays below one hundred until the
scan has finished, that never falls as more is examined, and that is off by less than its last place. -/
namespace Groundwork

namespace ScanStats

variable {s : ScanStats} {examined examined' toExamine toExamine' k : ℕ}

/-! ### The share -/

theorem value_share_mono
    (hle : ((Binary64.ofNat examined).div (Binary64.ofNat toExamine)).value ≤
      ((Binary64.ofNat examined').div (Binary64.ofNat toExamine')).value) :
    (share examined toExamine).value ≤ (share examined' toExamine').value := by
  have hhundred : 0 < (Binary64.ofNat 100).value := Binary64.value_ofNat_pos (by decide)
  rw [share, share, Binary64.value_min, Binary64.value_min]
  refine min_le_min_right _ (Binary64.value_div_mono hhundred (Binary64.value_round_mono ?_))
  exact Binary64.value_mul_mono (Binary64.value_mul_mono hle)

theorem value_share_le (examined toExamine : ℕ) :
    (share examined toExamine).value ≤ mostUnfinished.value := by
  rw [share, Binary64.value_min]
  exact min_le_right _ _

/-- The hundredths of a percent that a scan shows before it has finished. -/
def shown (examined toExamine : ℕ) : ℕ :=
  if toExamine = 0 then 0 else (share examined toExamine).toPlaces 2

theorem shown_le (examined toExamine : ℕ) : shown examined toExamine ≤ 9999 := by
  rw [shown]
  split
  · exact Nat.zero_le _
  · have hmost : mostUnfinished.toPlaces 2 = 9999 := by decide +kernel
    exact hmost ▸ Binary64.toPlaces_mono (value_share_le examined toExamine)

theorem shown_mono (hle : examined ≤ examined') : shown examined toExamine ≤ shown examined' toExamine := by
  rw [shown, shown]
  split
  · exact le_rfl
  · next hne =>
    refine Binary64.toPlaces_mono (value_share_mono (Binary64.value_div_mono ?_ ?_))
    · exact Binary64.value_ofNat_pos (Nat.pos_of_ne_zero hne)
    · exact Binary64.value_ofNat_mono hle

theorem shown_anti (hne : toExamine ≠ 0) (hle : toExamine ≤ toExamine') :
    shown examined toExamine' ≤ shown examined toExamine := by
  have hpos := Nat.pos_of_ne_zero hne
  rw [shown, shown, if_neg hne, if_neg (hpos.trans_le hle).ne']
  refine Binary64.toPlaces_mono (value_share_mono (Binary64.value_div_anti ?_ ?_))
  · exact Binary64.value_ofNat_pos hpos
  · exact Binary64.value_ofNat_mono hle

/-! ### The distance from the exact share -/

section Accuracy

open Binary64

/-- The hundredths of a percent, before they are rounded to a whole number. -/
def unrounded (examined toExamine : ℕ) : Binary64 :=
  (((ofNat examined).div (ofNat toExamine)).mul (ofNat 100)).mul (ofNat 100)

theorem value_unrounded_zero (toExamine : ℕ) : (unrounded 0 toExamine).value = 0 := by
  have hzero (den : ℕ) : (nearest 0 den).num = 0 := by
    rw [nearest, if_pos rfl, num, Nat.zero_mul]
  rw [unrounded, mul, mul, div, ofNat, hzero, Nat.zero_mul, hzero, Nat.zero_mul, hzero, Nat.zero_mul,
    value_nearest_zero]

theorem near_unrounded (hexamined : 0 < examined) (hpos : 0 < toExamine) (hsize : toExamine < 2 ^ 64) :
    Near (slip ^ 5) (unrounded examined toExamine).value (10000 * examined / toExamine) := by
  have hslip := slip_nonneg
  have hpos' : (0 : ℚ) < toExamine := by exact_mod_cast hpos
  have hleast : (1 : ℚ) / 2 ^ 100 ≤ examined / toExamine := by
    have hone : (1 : ℚ) ≤ examined := by exact_mod_cast hexamined
    have hden : (toExamine : ℚ) ≤ 2 ^ 100 := by exact_mod_cast hsize.le.trans (by decide)
    gcongr
  -- Both counters are rounded, then their quotient, then each of the two products.
  have hratio := (Near.ofNat hexamined).ratio (value_ofNat_pos hpos) hpos' (value_nonneg _)
    (Nat.cast_nonneg _) (Near.ofNat hpos)
  have hquotient := hratio.div (by positivity) (by norm_num [slip]) (value_ofNat_pos hpos) hleast
  have hpercent := hquotient.mul (z := ofNat 100) (by positivity) (by norm_num [slip])
    (by rw [value_hundred]; linarith)
  have hwhole := hpercent.mul (z := ofNat 100) (by positivity) (by norm_num [slip])
    (by rw [value_hundred]; linarith)
  have hpow : slip * (slip * (slip * (slip * slip))) = slip ^ 5 := by ring
  have hexact : (examined / toExamine * 100 * 100 : ℚ) = 10000 * examined / toExamine := by ring
  rwa [value_hundred, hpow, hexact] at hwhole

theorem near_hundredth (hk : 0 < k) :
    Near (slip * slip) ((ofNat k).div (ofNat 100)).value (k / 100) := by
  have hone : (1 : ℚ) ≤ k := by exact_mod_cast hk
  refine Near.div slip_nonneg (by norm_num [slip]) (value_ofNat_pos (by decide)) (by linarith) ?_
  rw [value_hundred, div_eq_mul_inv, div_eq_mul_inv]
  exact (Near.ofNat hk).mul_const (by norm_num)

theorem near_mostUnfinished : Near slip mostUnfinished.value (9999 / 100) := by
  have hself : Near 1 (((9999 : ℕ) : ℚ) / (100 : ℕ)) (9999 / 100) := by norm_num [Near.refl]
  exact mul_one slip ▸ hself.nearest (by decide) zero_le_one one_le_two (by norm_num)

/-- A number of hundredths comes back from the percentage it is made, cut to the greatest. -/
theorem toPlaces_hundredth (k : ℕ) :
    (((ofNat k).div (ofNat 100)).min mostUnfinished).toPlaces 2 = min k 9999 := by
  rcases Nat.eq_zero_or_pos k with rfl | hpos
  · decide +kernel
  have hround := roundsTo_toPlaces 2 (((ofNat k).div (ofNat 100)).min mostUnfinished)
  rw [value_min] at hround
  have hnear := near_hundredth hpos
  have hmost := near_mostUnfinished
  generalize ((ofNat k).div (ofNat 100)).value = v at *
  generalize mostUnfinished.value = w at *
  have hlow := hnear.low
  have hhigh := hnear.high
  have hlow' := hmost.low
  have hhigh' := hmost.high
  norm_num [slip] at hlow hhigh hlow' hhigh'
  rcases le_total k 9999 with hk | hk
  · have hk' : (k : ℚ) ≤ 9999 := by exact_mod_cast hk
    have hbelow : (k - 1 / 4 : ℚ) / 100 ≤ min v w := le_min (by linarith) (by linarith)
    have habove : min v w ≤ (k + 1 / 4) / 100 := (min_le_left _ _).trans (by linarith)
    rw [min_eq_left hk]
    exact hround.eq_of_lt (by linarith) (by linarith)
  · have hk' : (9999 : ℚ) ≤ k := by exact_mod_cast hk
    have hbelow : (9999 - 1 / 4 : ℚ) / 100 ≤ min v w := le_min (by linarith) (by linarith)
    have habove : min v w ≤ (9999 + 1 / 4) / 100 := (min_le_right _ _).trans (by linarith)
    rw [min_eq_right hk]
    exact hround.eq_of_lt (by push_cast; linarith) (by push_cast; linarith)

/-- Only the number of hundredths is rounded, the steps after that give it back. -/
theorem shown_eq_min (hpos : 0 < toExamine) :
    shown examined toExamine = min ⌊(unrounded examined toExamine).value + 1 / 2⌋₊ 9999 := by
  rw [shown, if_neg hpos.ne', share, Binary64.round, Decimal.nearestUp_eq_floor (den_pos _)]
  exact toPlaces_hundredth _

/-- What is shown, in hundredths of a percent, differs from the exact share by less than one. -/
theorem abs_shown_sub_lt (hpos : 0 < toExamine) (hsize : toExamine < 2 ^ 64) :
    |(shown examined toExamine : ℚ) - min (10000 * examined / toExamine : ℚ) 9999| < 1 := by
  rw [shown_eq_min hpos]
  rcases Nat.eq_zero_or_pos examined with rfl | hexamined
  · rw [value_unrounded_zero]
    norm_num
  have hnear := near_unrounded hexamined hpos hsize
  have hlow := hnear.low
  have hhigh := hnear.high
  norm_num [slip] at hlow hhigh
  have hnonneg := value_nonneg (unrounded examined toExamine)
  generalize (unrounded examined toExamine).value = v at *
  generalize (10000 * examined / toExamine : ℚ) = q at *
  have hfloor := Nat.floor_le (by linarith : 0 ≤ v + 1 / 2)
  have hfloor' := Nat.lt_floor_add_one (v + 1 / 2)
  push_cast
  generalize (⌊v + 1 / 2⌋₊ : ℚ) = n at *
  rcases le_total q 20000 with hsmall | hlarge
  · calc |min n 9999 - min q 9999| ≤ max |n - q| |9999 - 9999| := abs_min_sub_min_le_max ..
      _ < 1 := max_lt (abs_lt.2 ⟨by linarith, by linarith⟩) (by norm_num)
  · -- Twice as much as there is to examine, and both are cut to the greatest.
    rw [min_eq_right (by linarith : (9999 : ℚ) ≤ n), min_eq_right (by linarith : (9999 : ℚ) ≤ q)]
    norm_num

end Accuracy

/-! ### The text -/

theorem progress_eq_fixed (h : s.state ≠ .finished) :
    s.progress = Decimal.fixed 2 (shown s.examined s.toExamine) ++ "%" := by
  rw [progress, if_neg h, shown]
  split
  · decide +kernel
  · rfl

/-- The number that the digits of a percentage write, its point and its sign left out. -/
def hundredths (text : String) : ℕ := Decimal.value (text.toList.filter Decimal.isDigit)

/-- Whether a text is a percentage of one or two digits with two places. -/
def IsPercentage (text : String) : Prop :=
  ∃ (whole : List Char) (tenths hundredths : Char),
    text.toList = whole ++ ['.', tenths, hundredths, '%'] ∧
    (whole.length = 1 ∨ whole.length = 2) ∧
    ∀ c ∈ tenths :: hundredths :: whole, Decimal.isDigit c = true

theorem isPercentage_fixed {n : ℕ} (h : n ≤ 9999) : IsPercentage (Decimal.fixed 2 n ++ "%") := by
  have hpart : n % 10 ^ 2 < 10 ^ 2 := Nat.mod_lt n (by decide)
  obtain ⟨tenths, hundredths, hfraction⟩ :=
    List.length_eq_two.1 (Decimal.length_zeroFilled Nat.two_pos hpart)
  have hwhole := Decimal.digits_toString (n / 10 ^ 2)
  have hshort := (Decimal.length_toString_le_iff (n := n / 10 ^ 2) Nat.two_pos).2 (by omega)
  have hlong := List.length_pos_of_ne_nil hwhole.ne_nil
  refine ⟨(toString (n / 10 ^ 2)).toList, tenths, hundredths, ?_, by omega, fun c hc => ?_⟩
  · rw [String.toList_append, Decimal.toList_fixed, hfraction, List.append_assoc]
    rfl
  · have hdigit := (Decimal.digits_zeroFilled 2 (n % 10 ^ 2)).digit
    rw [hfraction] at hdigit
    rcases List.mem_append.1 (show c ∈ [tenths, hundredths] ++ _ from hc) with hc | hc
    · exact hdigit c hc
    · exact hwhole.digit c hc

theorem hundredths_fixed (n : ℕ) : hundredths (Decimal.fixed 2 n ++ "%") = n := by
  have hpart : n % 10 ^ 2 < 10 ^ 2 := Nat.mod_lt n (by decide)
  have hwhole := Decimal.digits_toString (n / 10 ^ 2)
  have hfraction := Decimal.digits_zeroFilled 2 (n % 10 ^ 2)
  have hdigits : (Decimal.fixed 2 n ++ "%").toList.filter Decimal.isDigit =
      (toString (n / 10 ^ 2)).toList ++ Decimal.zeroFilled 2 (n % 10 ^ 2) := by
    rw [String.toList_append, Decimal.toList_fixed, List.filter_append, List.filter_append,
      List.filter_eq_self.2 hwhole.digit, List.filter_cons_of_neg (by decide),
      List.filter_eq_self.2 hfraction.digit]
    exact List.append_nil _
  rw [hundredths, hdigits, Decimal.value_append, hwhole.value_eq, hfraction.value_eq,
    Decimal.length_zeroFilled Nat.two_pos hpart]
  exact Nat.div_add_mod' n _

/-- A scan that has not finished shows a percentage with two places that is below one hundred, whatever
its counters. It does not fall when more has been examined, nor rise when more is to be examined, and
it is less than a hundredth of a percent from the exact share, as far as that is below one hundred. -/
theorem unfinished_progress (h : s.state ≠ .finished) :
    IsPercentage s.progress ∧ hundredths s.progress ≤ 9999 ∧ s.progress ≠ "100.00%" ∧
    (∀ examined, s.examined ≤ examined →
      hundredths s.progress ≤ hundredths { s with examined }.progress) ∧
    (s.toExamine ≠ 0 → ∀ toExamine, s.toExamine ≤ toExamine →
      hundredths { s with toExamine }.progress ≤ hundredths s.progress) ∧
    (s.toExamine ≠ 0 → s.toExamine < 2 ^ 64 →
      |(hundredths s.progress : ℚ) - min (10000 * s.examined / s.toExamine : ℚ) 9999| < 1) := by
  have hshown (examined toExamine : ℕ) :
      hundredths { s with examined, toExamine }.progress = shown examined toExamine := by
    rw [progress_eq_fixed (s := { s with examined, toExamine }) h, hundredths_fixed]
  have hself : hundredths s.progress = shown s.examined s.toExamine := hshown _ _
  have hle : hundredths s.progress ≤ 9999 := hself ▸ shown_le _ _
  refine ⟨?_, hle, ?_, fun examined hmore => ?_, fun hne toExamine hmore => ?_, fun hne hsize => ?_⟩
  · rw [progress_eq_fixed h]
    exact isPercentage_fixed (shown_le _ _)
  · intro hdone
    rw [hdone] at hle
    exact absurd hle (by decide +kernel)
  · rw [hself, hshown]
    exact shown_mono hmore
  · rw [hself, hshown]
    exact shown_anti hne hmore
  · rw [hself]
    exact abs_shown_sub_lt (Nat.pos_of_ne_zero hne) hsize

/-- A scan with less than a hundredth of a percent to go. -/
def nearlyDone : ScanStats := { state := .scanning, examined := 999999, toExamine := 1000000 }

theorem unfinished_progress_nearlyDone :
    nearlyDone.progress = "99.99%" ∧ IsPercentage "99.99%" ∧
    hundredths "99.99%" ≤ hundredths { nearlyDone with examined := 2 ^ 64 - 1 }.progress ∧
    hundredths { nearlyDone with toExamine := 2 ^ 64 - 1 }.progress ≤ hundredths "99.99%" ∧
    |(hundredths "99.99%" : ℚ) - min (10000 * nearlyDone.examined / nearlyDone.toExamine : ℚ) 9999| < 1 := by
  have hshows : nearlyDone.progress = "99.99%" := by decide +kernel
  obtain ⟨hform, -, -, hmore, hless, hnear⟩ := unfinished_progress (s := nearlyDone) (by decide)
  rw [hshows] at hform hmore hless hnear
  exact ⟨hshows, hform, hmore (2 ^ 64 - 1) (by decide), hless (by decide) (2 ^ 64 - 1) (by decide),
    hnear (by decide) (by decide)⟩

end ScanStats

end Groundwork
