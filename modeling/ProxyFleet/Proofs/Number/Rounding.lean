import Mathlib.Algebra.Order.Field.Power
import Mathlib.Algebra.Order.Field.Rat
import Mathlib.Tactic.FieldSimp
import Mathlib.Tactic.Linarith
import Mathlib.Tactic.NormNum
import Mathlib.Tactic.Positivity
import Mathlib.Tactic.Push
import Mathlib.Tactic.Ring
import ProxyFleet.Number.Binary64

/-!
# Rounding

A double is nearest to a fraction, so that of two fractions the larger does not go to the lesser double.
What is not above a fraction that goes to a finite double is finite too.

* `Binary64.lt_roundEven_iff`, `Binary64.roundEven_mono` : rounding to integers;
* `Binary64.exists_scale`, `Binary64.nearestBits_mono` : the scale that a fraction is rounded at, and rounding to
  doubles;
* `Binary64.value`, `Binary64.value_mono` : the absolute value of a double;
* `Binary64.absBits_ofRatio_mono`, `Binary64.isFinite_div`, `Binary64.isFinite_mul_mono` : results that are finite.
-/

namespace ProxyFleet.Binary64

set_option autoImplicit false

/-! ## To integers -/

variable {a b a' b' : Nat}

/-- A fraction is rounded above `k` if it is above the middle of `k` and its successor, or is that middle and
`k` is odd. -/
theorem lt_roundEven_iff (hb : 0 < b) (k : Nat) :
    k < roundEven a b ↔ (2 * k + 1) * b < 2 * a ∨ (2 * k + 1) * b = 2 * a ∧ k % 2 = 1 := by
  have hdiv : b * (a / b) + a % b = a := Nat.div_add_mod a b
  have hrest : a % b < b := Nat.mod_lt a hb
  unfold roundEven
  dsimp only
  generalize a / b = floor at *
  generalize a % b = rest at *
  rcases Nat.lt_trichotomy k floor with hk | rfl | hk
  · have hbelow : (k + 1) * b ≤ floor * b := Nat.mul_le_mul_right b hk
    have hmiddle : (2 * k + 1) * b < 2 * a := by nlinarith
    have hround : floor ≤ if 2 * rest < b then floor else if b < 2 * rest then floor + 1 else floor + floor % 2 := by
      split_ifs
      all_goals omega
    exact iff_of_true (Nat.lt_of_lt_of_le hk hround) (.inl hmiddle)
  · have hmiddle : (2 * k + 1) * b = 2 * (b * k) + b := by ring
    rw [hmiddle]
    split_ifs
    all_goals omega
  · have habove : (floor + 1) * b ≤ k * b := Nat.mul_le_mul_right b hk
    have hmiddle : 2 * a < (2 * k + 1) * b := by nlinarith
    have hround : (if 2 * rest < b then floor else if b < 2 * rest then floor + 1 else floor + floor % 2) ≤ k := by
      split_ifs
      all_goals omega
    exact iff_of_false (Nat.not_lt.2 hround) (by omega)

theorem roundEven_mono (hb : 0 < b) (hb' : 0 < b') (h : a * b' ≤ a' * b) : roundEven a b ≤ roundEven a' b' := by
  refine Nat.le_of_not_lt fun hlt => ?_
  have hmiddle : (2 * roundEven a' b' + 1) * b' ≤ 2 * a' ∧
      ((2 * roundEven a' b' + 1) * b' = 2 * a' → roundEven a' b' % 2 = 1) := by
    generalize roundEven a' b' = k at hlt
    rcases (lt_roundEven_iff hb k).1 hlt with habove | ⟨hmiddle, hodd⟩
    · have hcross : (2 * k + 1) * b' * b < 2 * a' * b := by nlinarith
      have := Nat.lt_of_mul_lt_mul_right hcross
      omega
    · have hcross : (2 * k + 1) * b' * b ≤ 2 * a' * b := by nlinarith
      have := Nat.le_of_mul_le_mul_right hcross hb
      omega
  have hself : ¬roundEven a' b' < roundEven a' b' := Nat.lt_irrefl _
  rw [lt_roundEven_iff hb'] at hself
  omega

theorem roundEven_le {k : Nat} (hb : 0 < b) (h : a ≤ k * b) : roundEven a b ≤ k := by
  refine Nat.le_of_not_lt fun hlt => ?_
  rw [lt_roundEven_iff hb] at hlt
  have : (2 * k + 1) * b = 2 * (k * b) + b := by ring
  omega

theorem le_roundEven {k : Nat} (hb : 0 < b) (h : k * b ≤ a) : k ≤ roundEven a b := by
  cases k with
  | zero => exact Nat.zero_le _
  | succ k =>
    have : (2 * k + 1) * b + b = 2 * ((k + 1) * b) := by ring
    exact (lt_roundEven_iff hb k).2 (.inl (by omega))

/-! ## To doubles -/

/-- A power by what multiplies and what divides. -/
theorem zpow_eq_div (base : ℚ) (q : Int) : base ^ q = base ^ q.toNat / base ^ (-q).toNat := by
  rcases Int.le_total 0 q with hq | hq
  · have hneg : (-q).toNat = 0 := by omega
    rw [hneg, pow_zero, div_one, ← zpow_natCast, Int.toNat_of_nonneg hq]
  · have hpos : q.toNat = 0 := by omega
    rw [hpos, pow_zero, one_div, ← zpow_natCast, Int.toNat_of_nonneg (by omega), ← zpow_neg, neg_neg]

/-- A fraction at a scale, and a number of its units. -/
theorem scaled_lt_iff {num den m : Nat} (hden : 0 < den) (q : Int) :
    num * Nat.pow 2 (-q).toNat < m * (den * Nat.pow 2 q.toNat) ↔ (num : ℚ) / den < m * 2 ^ q := by
  have hd : (0 : ℚ) < den := by exact_mod_cast hden
  have hp : (0 : ℚ) < 2 ^ (-q).toNat := by positivity
  rw [zpow_eq_div, mul_div_assoc', div_lt_div_iff₀ hd hp]
  simp only [Nat.pow_eq]
  rw [← Nat.cast_lt (α := ℚ)]
  push_cast
  rw [show (m : ℚ) * (den * 2 ^ q.toNat) = m * 2 ^ q.toNat * den by ring]

variable {num den num' den' : Nat}

/-- A fraction is between the powers of two that the leading digits of its terms leave open. -/
theorem log2_bounds (hnum : 0 < num) (hden : 0 < den) :
    (2 : ℚ) ^ ((num.log2 : Int) - den.log2 - 1) ≤ num / den ∧
      (num : ℚ) / den < 2 ^ ((num.log2 : Int) - den.log2 + 1) := by
  have hd : (0 : ℚ) < den := by exact_mod_cast hden
  have hnum_low : (2 : ℚ) ^ (num.log2 : Int) ≤ num := by exact_mod_cast Nat.log2_self_le hnum.ne'
  have hnum_high : (num : ℚ) < 2 ^ ((num.log2 : Int) + 1) := by exact_mod_cast Nat.lt_log2_self
  have hden_low : (2 : ℚ) ^ (den.log2 : Int) ≤ den := by exact_mod_cast Nat.log2_self_le hden.ne'
  have hden_high : (den : ℚ) < 2 ^ ((den.log2 : Int) + 1) := by exact_mod_cast Nat.lt_log2_self
  rw [le_div_iff₀ hd, div_lt_iff₀ hd]
  generalize (num.log2 : Int) = n at *
  generalize (den.log2 : Int) = d at *
  constructor
  · calc (2 : ℚ) ^ (n - d - 1) * den ≤ 2 ^ (n - d - 1) * 2 ^ (d + 1) := by gcongr
      _ = 2 ^ n := by rw [← zpow_add₀ two_ne_zero]; congr 1; ring
      _ ≤ num := hnum_low
  · calc (num : ℚ) < 2 ^ (n + 1) := hnum_high
      _ = 2 ^ (n - d + 1) * 2 ^ d := by rw [← zpow_add₀ two_ne_zero]; congr 1; ring
      _ ≤ 2 ^ (n - d + 1) * den := by gcongr

/-- The scale of a positive fraction leaves 53 binary digits before the point, or is the smallest there is. -/
theorem exists_scale (hnum : 0 < num) (hden : 0 < den) :
    ∃ q : Int, -1074 ≤ q ∧
      nearestBits num den = min ((q + 1074).toNat * Nat.pow 2 52 +
        roundEven (num * Nat.pow 2 (-q).toNat) (den * Nat.pow 2 q.toNat)) (2047 * Nat.pow 2 52) ∧
      (num : ℚ) / den < 2 ^ (53 + q) ∧ (q = -1074 ∨ (2 : ℚ) ^ (52 + q) ≤ num / den) := by
  obtain ⟨hlow, hhigh⟩ := log2_bounds hnum hden
  unfold nearestBits
  dsimp only
  set guess : Int := (num.log2 : Int) - den.log2 - 52
  have hguess : num * Nat.pow 2 (-guess).toNat < Nat.pow 2 52 * (den * Nat.pow 2 guess.toNat) ↔
      (num : ℚ) / den < 2 ^ (52 + guess) := by
    rw [scaled_lt_iff hden, zpow_add₀ two_ne_zero]
    norm_num
  set exact : Int := if num * Nat.pow 2 (-guess).toNat < Nat.pow 2 52 * (den * Nat.pow 2 guess.toNat) then guess - 1
    else guess with hexact
  have hbounds : (2 : ℚ) ^ (52 + exact) ≤ num / den ∧ (num : ℚ) / den < 2 ^ (53 + exact) := by
    rw [hexact]
    split_ifs with hsmall
    · refine ⟨le_trans (zpow_le_zpow_right₀ one_le_two (by omega)) hlow, ?_⟩
      exact lt_of_lt_of_le (hguess.1 hsmall) (zpow_le_zpow_right₀ one_le_two (by omega))
    · refine ⟨not_lt.1 fun h => hsmall (hguess.2 h), ?_⟩
      exact lt_of_lt_of_le hhigh (zpow_le_zpow_right₀ one_le_two (by omega))
  refine ⟨max exact (-1074), le_max_right _ _, rfl, ?_, ?_⟩
  · exact lt_of_lt_of_le hbounds.2 (zpow_le_zpow_right₀ one_le_two (by omega))
  · rcases le_total exact (-1074) with hle | hle
    · exact .inl (max_eq_right hle)
    · rw [max_eq_left hle]
      exact .inr hbounds.1

/-- Of two fractions the larger has no lesser bits. -/
theorem nearestBits_mono (hnum : 0 < num) (hden : 0 < den) (hnum' : 0 < num') (hden' : 0 < den')
    (h : (num : ℚ) / den ≤ num' / den') : nearestBits num den ≤ nearestBits num' den' := by
  obtain ⟨q, hq, hbits, hhigh, hlow⟩ := exists_scale hnum hden
  obtain ⟨q', hq', hbits', hhigh', hlow'⟩ := exists_scale hnum' hden'
  have hscale : q ≤ q' := by
    rcases hlow with rfl | hlow
    · exact hq'
    · have hpowers : (2 : ℚ) ^ (52 + q) < 2 ^ (53 + q') := lt_of_le_of_lt (hlow.trans h) hhigh'
      have := (zpow_lt_zpow_iff_right₀ one_lt_two).1 hpowers
      omega
  have hpos : 0 < den * Nat.pow 2 q.toNat := Nat.mul_pos hden (Nat.pow_pos two_pos)
  have hpos' : 0 < den' * Nat.pow 2 q'.toNat := Nat.mul_pos hden' (Nat.pow_pos two_pos)
  rw [hbits, hbits']
  refine min_le_min_right _ ?_
  rcases hscale.eq_or_lt with rfl | hlt
  · have hcross : num * den' ≤ num' * den := by
      rw [div_le_div_iff₀ (by exact_mod_cast hden) (by exact_mod_cast hden')] at h
      exact_mod_cast h
    refine Nat.add_le_add_left (roundEven_mono hpos hpos' ?_) _
    calc num * Nat.pow 2 (-q).toNat * (den' * Nat.pow 2 q.toNat)
        = num * den' * (Nat.pow 2 (-q).toNat * Nat.pow 2 q.toNat) := by ring
      _ ≤ num' * den * (Nat.pow 2 (-q).toNat * Nat.pow 2 q.toNat) := Nat.mul_le_mul_right _ hcross
      _ = num' * Nat.pow 2 (-q).toNat * (den * Nat.pow 2 q.toNat) := by ring
  · -- the lesser fraction fills its scale at most, and the greater one half of the next at least
    have hround : roundEven (num * Nat.pow 2 (-q).toNat) (den * Nat.pow 2 q.toNat) ≤ Nat.pow 2 53 := by
      refine roundEven_le hpos (le_of_lt ((scaled_lt_iff hden q).2 ?_))
      rw [zpow_add₀ two_ne_zero] at hhigh
      exact_mod_cast hhigh
    have hround' : Nat.pow 2 52 ≤ roundEven (num' * Nat.pow 2 (-q').toNat) (den' * Nat.pow 2 q'.toNat) := by
      refine le_roundEven hpos' (not_lt.1 fun hsmall => ?_)
      have hsmall := (scaled_lt_iff hden' q').1 hsmall
      rcases hlow' with rfl | hlow'
      · omega
      · rw [zpow_add₀ two_ne_zero] at hlow'
        exact absurd hsmall (not_lt.2 (by exact_mod_cast hlow'))
    have hunit : Nat.pow 2 53 = 2 * Nat.pow 2 52 := rfl
    have hstep : (q + 1074).toNat + 1 ≤ (q' + 1074).toNat := by omega
    have hnext := Nat.mul_le_mul_right (Nat.pow 2 52) hstep
    rw [Nat.add_mul, Nat.one_mul] at hnext
    omega

/-! ## Values -/

/-- The absolute value of a finite number. -/
def value (x : Binary64) : ℚ := x.magnitude.1 * 2 ^ x.magnitude.2

variable {x y x' y' : Binary64}

theorem ratio_snd_pos (x : Binary64) : 0 < x.ratio.2 := Nat.pow_pos two_pos

theorem ratio_div (x : Binary64) : (x.ratio.1 : ℚ) / x.ratio.2 = x.value := by
  rw [value, zpow_eq_div, mul_div_assoc']
  simp only [ratio, Nat.pow_eq]
  push_cast
  rfl

theorem value_nonneg (x : Binary64) : 0 ≤ x.value := by
  unfold value
  positivity

/-- The bits of doubles order their values. -/
theorem value_mono (h : x.absBits ≤ y.absBits) : x.value ≤ y.value := by
  have hx : Nat.pow 2 52 * x.exponentField + x.fractionField = x.absBits := Nat.div_add_mod _ _
  have hy : Nat.pow 2 52 * y.exponentField + y.fractionField = y.absBits := Nat.div_add_mod _ _
  have hfx : x.fractionField < Nat.pow 2 52 := Nat.mod_lt _ (Nat.pow_pos two_pos)
  have hfy : y.fractionField < Nat.pow 2 52 := Nat.mod_lt _ (Nat.pow_pos two_pos)
  have hsize : Nat.pow 2 52 = 4503599627370496 := rfl
  unfold value magnitude
  rw [hsize] at hx hy hfx hfy ⊢
  generalize x.exponentField = e at *
  generalize y.exponentField = e' at *
  generalize x.fractionField = f at *
  generalize y.fractionField = f' at *
  have hle : e ≤ e' := by omega
  split_ifs with he he'
  · exact mul_le_mul_of_nonneg_right (by exact_mod_cast (by omega : f ≤ f')) (by positivity)
  · -- numbers below the least normal one have its scale
    have hscale : (2 : ℚ) ^ (-1074 : Int) ≤ 2 ^ ((e' : Int) - 1075) := zpow_le_zpow_right₀ one_le_two (by omega)
    exact mul_le_mul (by exact_mod_cast (by omega : f ≤ f' + 4503599627370496)) hscale (by positivity) (by positivity)
  · omega
  · rcases hle.eq_or_lt with rfl | hlt
    · exact mul_le_mul_of_nonneg_right (by exact_mod_cast (by omega : _ ≤ f' + 4503599627370496)) (by positivity)
    · have hscale : (2 : ℚ) * 2 ^ ((e : Int) - 1075) ≤ 2 ^ ((e' : Int) - 1075) := by
        rw [← zpow_one_add₀ two_ne_zero]
        exact zpow_le_zpow_right₀ one_le_two (by omega)
      have hdigits : ((f + 4503599627370496 : Nat) : ℚ) ≤ (f' + 4503599627370496 : Nat) * 2 := by
        exact_mod_cast (by omega : f + 4503599627370496 ≤ (f' + 4503599627370496) * 2)
      calc ((f + 4503599627370496 : Nat) : ℚ) * 2 ^ ((e : Int) - 1075)
          ≤ (f' + 4503599627370496 : Nat) * 2 * 2 ^ ((e : Int) - 1075) := by gcongr
        _ = (f' + 4503599627370496 : Nat) * (2 * 2 ^ ((e : Int) - 1075)) := by ring
        _ ≤ (f' + 4503599627370496 : Nat) * 2 ^ ((e' : Int) - 1075) := by gcongr

/-! ## Finite results -/

theorem isFinite_iff : x.isFinite = true ↔ x.absBits < 2047 * Nat.pow 2 52 := by
  rw [isFinite, decide_eq_true_iff, exponentField, Nat.div_lt_iff_lt_mul (by decide : 0 < Nat.pow 2 52)]

theorem isFinite_of_le (h : x.absBits ≤ y.absBits) (hy : y.isFinite = true) : x.isFinite = true :=
  isFinite_iff.2 (Nat.lt_of_le_of_lt h (isFinite_iff.1 hy))

theorem not_isNaN_of_isFinite (h : x.isFinite = true) : x.isNaN = false := by
  have hfield : x.exponentField ≠ 2047 := Nat.ne_of_lt (of_decide_eq_true h)
  rw [isNaN, beq_false_of_ne hfield, Bool.false_and]

theorem absBits_ofSignAndBits (negative : Bool) {abs : Nat} (h : abs < Nat.pow 2 63) :
    (ofSignAndBits negative abs).absBits = abs := by
  have hsize : Nat.pow 2 63 = 9223372036854775808 := rfl
  rw [absBits, ofSignAndBits, UInt64.toNat_ofNat', hsize]
  rw [hsize] at h
  split_ifs
  all_goals omega

theorem absBits_ofRatio (negative : Bool) (num den : Nat) :
    (ofRatio negative num den).absBits = if num = 0 then 0 else nearestBits num den := by
  have hbits : nearestBits num den ≤ 2047 * Nat.pow 2 52 := Nat.min_le_right _ _
  have hsize : 2047 * Nat.pow 2 52 < Nat.pow 2 63 := by decide
  refine absBits_ofSignAndBits negative ?_
  split_ifs
  · exact Nat.pow_pos two_pos
  · omega

/-- Of two fractions the larger does not go to the lesser double. -/
theorem absBits_ofRatio_mono (negative negative' : Bool) (hden : 0 < den) (hden' : 0 < den')
    (h : (num : ℚ) / den ≤ num' / den') :
    (ofRatio negative num den).absBits ≤ (ofRatio negative' num' den').absBits := by
  rw [absBits_ofRatio, absBits_ofRatio]
  rcases Nat.eq_zero_or_pos num with rfl | hnum
  · exact Nat.zero_le _
  · have hnum' : 0 < num' := by
      have hpos : (0 : ℚ) < num' / den' :=
        lt_of_lt_of_le (div_pos (by exact_mod_cast hnum) (by exact_mod_cast hden)) h
      have hd : (0 : ℚ) < den' := by exact_mod_cast hden'
      exact_mod_cast (div_pos_iff_of_pos_right hd).1 hpos
    rw [if_neg hnum.ne', if_neg hnum'.ne']
    exact nearestBits_mono hnum hden hnum' hden' h

/-- The greatest finite number. -/
def greatest : Binary64 := ⟨0x7fefffffffffffff⟩

/-- What is not above a finite number goes to a finite one. -/
theorem isFinite_ofRatio_of_le (hx : x.isFinite = true) (hden : 0 < den) (h : (num : ℚ) / den ≤ x.value)
    (negative : Bool) : (ofRatio negative num den).isFinite = true := by
  have hgreatest : (ofRatio false greatest.ratio.1 greatest.ratio.2).isFinite = true := by decide +kernel
  have hbits : greatest.absBits + 1 = 2047 * Nat.pow 2 52 := by decide
  have hle : x.value ≤ greatest.value := value_mono (by have := isFinite_iff.1 hx; omega)
  refine isFinite_of_le (absBits_ofRatio_mono negative false hden greatest.ratio_snd_pos ?_) hgreatest
  rw [ratio_div]
  exact h.trans hle

theorem mul_eq (hx : x.isFinite = true) (hy : y.isFinite = true) :
    x.mul y = ofRatio (x.isNegative != y.isNegative) (x.ratio.1 * y.ratio.1) (x.ratio.2 * y.ratio.2) := by
  simp [mul, hx, hy, not_isNaN_of_isFinite]

theorem ratio_mul (x y : Binary64) :
    ((x.ratio.1 * y.ratio.1 : Nat) : ℚ) / (x.ratio.2 * y.ratio.2 : Nat) = x.value * y.value := by
  rw [← ratio_div, ← ratio_div]
  push_cast
  rw [div_mul_div_comm]

theorem isFinite_mul_mono (hx : x.isFinite = true) (hy : y.isFinite = true) (hx' : x'.isFinite = true)
    (hy' : y'.isFinite = true) (hxx' : x.absBits ≤ x'.absBits) (hyy' : y.absBits ≤ y'.absBits)
    (h : (x'.mul y').isFinite = true) : (x.mul y).isFinite = true := by
  have hpos (x y : Binary64) : 0 < x.ratio.2 * y.ratio.2 := Nat.mul_pos x.ratio_snd_pos y.ratio_snd_pos
  rw [mul_eq hx hy]
  rw [mul_eq hx' hy'] at h
  refine isFinite_of_le (absBits_ofRatio_mono _ _ (hpos x y) (hpos x' y') ?_) h
  rw [ratio_mul, ratio_mul]
  exact mul_le_mul (value_mono hxx') (value_mono hyy') y.value_nonneg x'.value_nonneg

theorem isFinite_mul (hx : x.isFinite = true) (hy : y.isFinite = true) (h : y.value ≤ 1) :
    (x.mul y).isFinite = true := by
  rw [mul_eq hx hy]
  refine isFinite_ofRatio_of_le hx (Nat.mul_pos x.ratio_snd_pos y.ratio_snd_pos) ?_ _
  rw [ratio_mul]
  exact mul_le_of_le_one_right x.value_nonneg h

theorem isFinite_div (hx : x.isFinite = true) (h : 1 ≤ y.value) : (x.div y).isFinite = true := by
  have hy : 0 < y.ratio.1 := by
    refine Nat.pos_of_ne_zero fun hzero => ?_
    rw [← ratio_div, hzero, Nat.cast_zero, zero_div] at h
    exact absurd h (by norm_num)
  refine isFinite_ofRatio_of_le hx (Nat.mul_pos x.ratio_snd_pos hy) ?_ _
  have hquotient : ((x.ratio.1 * y.ratio.2 : Nat) : ℚ) / (x.ratio.2 * y.ratio.1 : Nat) = x.value / y.value := by
    rw [← ratio_div, ← ratio_div, div_div_div_eq]
    push_cast
    rfl
  rw [hquotient]
  exact div_le_self x.value_nonneg h

end ProxyFleet.Binary64
