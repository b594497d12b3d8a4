import ProxyFleet.Json.Reader
import ProxyFleet.Proofs.Number.Shortest

/-!
# Decimals that a double holds

What is written of a finite double is a decimal that can be read: it is scaled to a finite double again.
The decimal is less than the greatest double by more than what the scaling rounds up, but for the one
that is written of the greatest double itself.

* `Json.scaleByTen?_of_nonpos` : digits behind the point only make a number smaller;
* `Json.isFinite_mul_of_le` : a product that is under the decimal limit is finite;
* `Json.exists_decimal?_spelled` : the decimal that is written of a finite double is read.
-/

namespace ProxyFleet

set_option autoImplicit false

namespace Binary64

theorem isFinite_ofNat {n : Nat} (h : n < Nat.pow 2 64) : (ofNat n).isFinite = true := by
  have hlimit : (ofNat (Nat.pow 2 64)).isFinite = true := by decide +kernel
  refine isFinite_of_le (absBits_ofRatio_mono false false Nat.one_pos Nat.one_pos ?_) hlimit
  gcongr

theorem value_ofNat_one : (ofNat 1).value = 1 := by
  have hratio : (ofNat 1).ratio = (Nat.pow 2 52, Nat.pow 2 52) := by decide +kernel
  rw [← ratio_div, hratio, div_self (by norm_num)]

theorem one_le_value_ofNat {n : Nat} (h : 0 < n) : 1 ≤ (ofNat n).value := by
  rw [← value_ofNat_one]
  refine value_mono (absBits_ofRatio_mono false false Nat.one_pos Nat.one_pos ?_)
  gcongr
  exact h

end Binary64

namespace Json

open Binary64

/-! ## Scaling -/

/-- A number is scaled once where the exponent is not too large and the result is finite. -/
theorem scaleByTen?_of_isFinite {f : Binary64} {e : Int} (he : e.natAbs ≤ 308)
    (h : (if 0 ≤ e then f.mul (ofNat (Nat.pow 10 e.natAbs)) else f.div (ofNat (Nat.pow 10 e.natAbs))).isFinite = true)
    (steps : Nat) : ∃ y, scaleByTen? steps f e = some y := by
  unfold scaleByTen?
  rw [if_pos he, if_pos h]
  exact ⟨_, rfl⟩

theorem isFinite_div_power {f : Binary64} (hf : f.isFinite = true) (k : Nat) :
    (f.div (ofNat (Nat.pow 10 k))).isFinite = true :=
  isFinite_div hf (one_le_value_ofNat (Nat.pow_pos (by decide)))

theorem isFinite_scaled_of_nonpos {f : Binary64} (hf : f.isFinite = true) {e : Int} (he : e ≤ 0) :
    (if 0 ≤ e then f.mul (ofNat (Nat.pow 10 e.natAbs)) else f.div (ofNat (Nat.pow 10 e.natAbs))).isFinite = true := by
  split_ifs with hzero
  · obtain rfl : e = 0 := by omega
    exact isFinite_mul hf (by decide +kernel) value_ofNat_one.le
  · exact isFinite_div_power hf _

theorem scaleByTen?_succ {f : Binary64} {e : Int} (hlarge : ¬e.natAbs ≤ 308) (hf : ¬f.isZero = true) (he : ¬0 ≤ e)
    (steps : Nat) : scaleByTen? (steps + 1) f e = scaleByTen? steps (f.div (ofNat (Nat.pow 10 308))) (e + 308) := by
  rw [scaleByTen?, if_neg hlarge, if_neg hf, if_neg he]

/-- What is divided by a power of ten stays finite. -/
theorem scaleByTen?_of_nonpos {f : Binary64} (hf : f.isFinite = true) {e : Int} (he : e ≤ 0) (steps : Nat) :
    ∃ y, scaleByTen? steps f e = some y := by
  induction steps generalizing f e with
  | zero =>
    by_cases hsmall : e.natAbs ≤ 308
    · exact scaleByTen?_of_isFinite hsmall (isFinite_scaled_of_nonpos hf he) 0
    · have hneg : ¬0 ≤ e := by omega
      unfold scaleByTen?
      rw [if_neg hsmall, if_neg hneg, ite_self]
      exact ⟨f, rfl⟩
  | succ steps ih =>
    by_cases hsmall : e.natAbs ≤ 308
    · exact scaleByTen?_of_isFinite hsmall (isFinite_scaled_of_nonpos hf he) (steps + 1)
    by_cases hzero : f.isZero = true
    · unfold scaleByTen?
      rw [if_neg hsmall, if_pos hzero]
      exact ⟨f, rfl⟩
    · have hneg : ¬0 ≤ e := by omega
      rw [scaleByTen?_succ hsmall hzero hneg steps]
      refine ih ?_ (by omega)
      apply isFinite_div_power hf

theorem exists_decimal? {significand : Nat} {e : Int} (h : ∃ y, scaleByTen? 3 (ofNat significand) e = some y)
    (negative : Bool) : ∃ y, decimal? negative significand e = some y := by
  obtain ⟨y, hy⟩ := h
  rw [decimal?, hy]
  exact ⟨_, rfl⟩

/-- A little less than the greatest double: what may be lost in scaling is left. -/
def decimalLimit : Nat := (Nat.pow 2 54 - 3) * Nat.pow 2 970

/-- Under the limit no product with a power of ten becomes infinite. -/
theorem isFinite_mul_of_le {v e : Nat} (hv : v < Nat.pow 2 64) (he : e < 309) (h : v * 10 ^ e ≤ decimalLimit) :
    ((ofNat v).mul (ofNat (Nat.pow 10 e))).isFinite = true := by
  have hmost : ∀ e < 309, (ofNat (Nat.pow 10 e)).isFinite = true ∧
      (ofNat (min (Nat.pow 2 64 - 1) (decimalLimit / Nat.pow 10 e))).isFinite = true ∧
      ((ofNat (min (Nat.pow 2 64 - 1) (decimalLimit / Nat.pow 10 e))).mul (ofNat (Nat.pow 10 e))).isFinite = true := by
    decide +kernel
  obtain ⟨hpower, hbound, hproduct⟩ := hmost e he
  have hle : v ≤ min (Nat.pow 2 64 - 1) (decimalLimit / Nat.pow 10 e) :=
    le_min (by omega) ((Nat.le_div_iff_mul_le (Nat.pow_pos (by decide))).2 h)
  refine isFinite_mul_mono (isFinite_ofNat hv) hpower hbound hpower ?_ le_rfl hproduct
  refine absBits_ofRatio_mono false false Nat.one_pos Nat.one_pos ?_
  gcongr

/-! ## What is written of a double -/

section Spelled

variable {x : Binary64}

theorem cast_decimalLimit : (decimalLimit : ℚ) = (2 ^ 54 - 3) * 2 ^ ((970 : Nat) : Int) := by
  have hpower (k : Nat) : ((Nat.pow 2 k : Nat) : ℚ) = 2 ^ (k : Int) := by
    rw [Nat.pow_eq, Nat.cast_pow, zpow_natCast]
    rfl
  have hdigits : ((Nat.pow 2 54 - 3 : Nat) : ℚ) = 2 ^ 54 - 3 := by norm_num
  simp only [decimalLimit, Nat.cast_mul, hpower, hdigits]

/-- What rounds to a finite double other than the greatest is under the limit. -/
theorem high_le_decimalLimit (hfinite : x.isFinite = true) (h : x.magnitude ≠ (Nat.pow 2 53 - 1, 971)) :
    ((x.magnitude.1 : ℚ) + 1 / 2) * 2 ^ x.magnitude.2 ≤ decimalLimit := by
  obtain ⟨hdigits, -, hexponent⟩ := magnitude_bounds hfinite
  have hsize : Nat.pow 2 53 = 9007199254740992 := rfl
  rw [cast_decimalLimit]
  generalize x.magnitude = magnitude at *
  obtain ⟨m, q⟩ := magnitude
  dsimp only at hdigits hexponent ⊢
  rcases hexponent.eq_or_lt with rfl | hless
  · have hm : m + 2 ≤ 2 ^ 53 := by
      have : m ≠ Nat.pow 2 53 - 1 := fun hm => h (by rw [hm])
      omega
    have hm : (m : ℚ) + 2 ≤ 2 ^ 53 := by exact_mod_cast hm
    rw [show (971 : Int) = 1 + (970 : Nat) by rfl, zpow_add₀ two_ne_zero, ← mul_assoc]
    gcongr
    rw [zpow_one]
    linarith
  · have hm : (m : ℚ) + 1 ≤ 2 ^ 53 := by exact_mod_cast hdigits
    have hpower : (2 : ℚ) ^ q ≤ 2 ^ ((970 : Nat) : Int) := zpow_le_zpow_right₀ one_le_two (by omega)
    have hbelow : (m : ℚ) + 1 / 2 ≤ 2 ^ 54 - 3 := by linarith
    exact mul_le_mul hbelow hpower (by positivity) (by norm_num)

/-- The decimal that is written of the greatest double is read as it. -/
theorem decimal?_greatest (h : x.magnitude = (Nat.pow 2 53 - 1, 971)) :
    scaleByTen? 3 (ofNat (Nat.ofDigitChars 10 x.digitsAndExponent.1 0))
      (x.digitsAndExponent.2 + 1 - x.digitsAndExponent.1.length) = some greatest := by
  have hmagnitude : greatest.magnitude = (Nat.pow 2 53 - 1, 971) := by decide +kernel
  have hsame : x.digitsAndExponent = greatest.digitsAndExponent := by
    rw [digitsAndExponent, digitsAndExponent, h, hmagnitude]
  rw [hsame]
  decide +kernel

/-- The digits that are written of a finite double give a decimal that is read. -/
theorem exists_decimal?_spelled (hfinite : x.isFinite = true) (hzero : x.isZero = false) (negative : Bool) :
    ∃ y, decimal? negative (Nat.ofDigitChars 10 x.digitsAndExponent.1 0)
      (x.digitsAndExponent.2 + 1 - x.digitsAndExponent.1.length) = some y := by
  obtain ⟨hspelled, -⟩ := spelled hfinite hzero
  refine exists_decimal? ?_ negative
  by_cases hgreatest : x.magnitude = (Nat.pow 2 53 - 1, 971)
  · exact ⟨greatest, decimal?_greatest hgreatest⟩
  have hbound := hspelled.le.trans (high_le_decimalLimit hfinite hgreatest)
  have hpos := hspelled.pos
  have hfew : Nat.ofDigitChars 10 x.digitsAndExponent.1 0 < Nat.pow 2 64 := hspelled.small.trans_lt (by decide)
  generalize Nat.ofDigitChars 10 x.digitsAndExponent.1 0 = v at *
  generalize x.digitsAndExponent.2 + 1 - x.digitsAndExponent.1.length = e at *
  rcases Int.le_total e 0 with he | he
  · exact scaleByTen?_of_nonpos (isFinite_ofNat hfew) he 3
  · obtain ⟨e, rfl⟩ := Int.eq_ofNat_of_zero_le he
    have hproduct : v * 10 ^ e ≤ decimalLimit := by
      rw [zpow_natCast] at hbound
      exact_mod_cast hbound
    have hsmall : e < 309 := by
      have hlimit : decimalLimit < 10 ^ 309 := by decide +kernel
      refine (pow_lt_pow_iff_right₀ (by decide : 1 < 10)).1 (lt_of_le_of_lt ?_ hlimit)
      exact le_trans (Nat.le_mul_of_pos_left _ hpos) hproduct
    refine scaleByTen?_of_isFinite (by omega) ?_ 3
    rw [if_pos he]
    exact isFinite_mul_of_le hfew hsmall hproduct

end Spelled

end Json

end ProxyFleet
