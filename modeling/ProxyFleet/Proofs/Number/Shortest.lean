import Mathlib.Data.List.DropRight
import Mathlib.Data.Nat.Digits.Defs
import ProxyFleet.Number.Shortest
import ProxyFleet.Proofs.Number.Rounding

/-!
# Shortest decimals

The digits that are written of a double are few, and the number they give is not above the numbers that
round to the double.

* `Binary64.leadingExponent_spec` : a fraction is between two powers of ten;
* `Binary64.shortest_spec` : the shortest decimal, with its digits and its size;
* `Binary64.Spelled`, `Binary64.spelled` : the same of the digits that are written.
-/

namespace ProxyFleet

set_option autoImplicit false

/-! ## Digits -/

theorem toDigits_bounds {n : Nat} (h : 0 < n) :
    10 ^ ((Nat.toDigits 10 n).length - 1) ≤ n ∧ n < 10 ^ (Nat.toDigits 10 n).length := by
  have hlength : 0 < (Nat.toDigits 10 n).length := Nat.length_toDigits_pos
  refine ⟨?_, (Nat.length_toDigits_le_iff (by decide) hlength).1 le_rfl⟩
  rcases Nat.eq_zero_or_pos ((Nat.toDigits 10 n).length - 1) with hone | hmore
  · rw [hone]
    exact h
  · refine not_lt.1 fun hlt => ?_
    have := (Nat.length_toDigits_le_iff (by decide) hmore).2 hlt
    omega

theorem isDigit_of_mem_toDigits {n : Nat} {c : Char} (h : c ∈ Nat.toDigits 10 n) : c.isDigit = true :=
  Nat.isDigit_of_mem_toDigits (by decide) (by decide) h

theorem head?_toDigits_ne_zero {n : Nat} (h : 0 < n) : (Nat.toDigits 10 n).head? ≠ some '0' := by
  induction n using Nat.strongRecOn with
  | ind n ih =>
    by_cases hsmall : n < 10
    · rw [Nat.toDigits_of_lt_base hsmall]
      have hall : ∀ m < 10, 0 < m → m.digitChar ≠ '0' := by decide
      simpa using hall n hsmall h
    · rw [Nat.toDigits_of_base_le (by decide) (Nat.le_of_not_lt hsmall),
        List.head?_append_of_ne_nil _ Nat.toDigits_ne_nil]
      exact ih (n / 10) (by omega) (by omega)

namespace Binary64

/-! ## The leading digit -/

variable {num den : Nat}

/-- The exponent of the leading digit: the fraction is between that power of ten and the next. -/
theorem leadingExponent_spec (hnum : 0 < num) (hden : 0 < den) :
    (10 : ℚ) ^ leadingExponent num den ≤ num / den ∧ (num : ℚ) / den < 10 ^ (leadingExponent num den + 1) := by
  have hn : (0 : ℚ) < num := by exact_mod_cast hnum
  have hd : (0 : ℚ) < den := by exact_mod_cast hden
  rw [le_div_iff₀ hd, div_lt_iff₀ hd]
  unfold leadingExponent
  split_ifs with hone
  · obtain ⟨hlow, hhigh⟩ := toDigits_bounds (Nat.div_pos hone hden)
    have hlength : 0 < (Nat.toDigits 10 (num / den)).length := Nat.length_toDigits_pos
    generalize (Nat.toDigits 10 (num / den)).length = n at *
    have hlow : 10 ^ (n - 1) * den ≤ num := (Nat.le_div_iff_mul_le hden).1 hlow
    have hhigh : num < 10 ^ n * den := (Nat.div_lt_iff_lt_mul hden).1 hhigh
    rw [show (n : Int) - 1 = (n - 1 : Nat) by omega, show ((n - 1 : Nat) : Int) + 1 = (n : Nat) by omega,
      zpow_natCast, zpow_natCast]
    exact ⟨by exact_mod_cast hlow, by exact_mod_cast hhigh⟩
  · have hpos : 0 < den / num := Nat.div_pos (by omega) hnum
    obtain ⟨hlow, hhigh⟩ := toDigits_bounds hpos
    have hlength : 0 < (Nat.toDigits 10 (den / num)).length := Nat.length_toDigits_pos
    dsimp only
    obtain ⟨t, ht⟩ : ∃ t, (Nat.toDigits 10 (den / num)).length = t + 1 := ⟨_, (Nat.succ_pred hlength.ne').symm⟩
    rw [ht, Nat.add_sub_cancel] at hlow
    rw [ht] at hhigh
    have hlow : 10 ^ t * num ≤ den := (Nat.le_div_iff_mul_le hnum).1 hlow
    have hhigh : den < 10 ^ (t + 1) * num := (Nat.div_lt_iff_lt_mul hnum).1 hhigh
    rw [ht, Nat.add_sub_cancel]
    split_ifs with hexact
    · have hexact : den ≤ 10 ^ t * num := Nat.mul_comm num _ ▸ hexact
      rw [neg_add_eq_sub, zpow_sub₀ (by norm_num), zpow_neg, zpow_natCast, zpow_one, inv_mul_le_iff₀ (by positivity),
        div_mul_eq_mul_div, lt_div_iff₀ (by positivity)]
      exact ⟨by exact_mod_cast hexact, by exact_mod_cast (by rw [Nat.mul_comm num]; omega : num * 10 ^ t < 10 * den)⟩
    · have hless : 10 ^ t * num < den := Nat.mul_comm num _ ▸ Nat.lt_of_not_le hexact
      have hexponent : -(t : Int) - 1 = -((t + 1 : Nat) : Int) := by omega
      rw [sub_add_cancel, hexponent, zpow_neg, zpow_neg, zpow_natCast, zpow_natCast,
        inv_mul_le_iff₀ (by positivity), lt_inv_mul_iff₀ (by positivity)]
      exact ⟨by exact_mod_cast hhigh.le, by exact_mod_cast hless⟩

/-! ## The shortest decimal -/

section Interval

variable {r : RoundingInterval}

/-- A decimal that rounds to the double is not above the interval. -/
theorem le_of_contains (hden : 0 < r.denominator) {c : Nat} {e : Int} (h : r.contains c e = true) :
    (c : ℚ) * 10 ^ e ≤ r.high / r.denominator := by
  have hle : c * Nat.pow 10 e.toNat * r.denominator ≤ r.high * Nat.pow 10 (-e).toNat := by
    unfold RoundingInterval.contains at h
    dsimp only at h
    split_ifs at h
    · rw [Bool.and_eq_true, decide_eq_true_iff, decide_eq_true_iff] at h
      exact h.2
    · rw [Bool.and_eq_true, decide_eq_true_iff, decide_eq_true_iff] at h
      exact h.2.le
  have hd : (0 : ℚ) < r.denominator := by exact_mod_cast hden
  rw [zpow_eq_div, mul_div_assoc', div_le_div_iff₀ (by positivity) hd]
  exact_mod_cast hle

/-- What is below the value on a grid. -/
def gridFloor (r : RoundingInterval) (e : Int) : Nat :=
  r.value * Nat.pow 10 (-e).toNat / (r.denominator * Nat.pow 10 e.toNat)

/-- What is found on a grid is one of the two neighbours of the value, and rounds to the double. -/
theorem contains_of_onGrid? {e : Int} {d : Nat} (h : r.onGrid? e = some d) :
    (d = gridFloor r e ∨ d = gridFloor r e + 1) ∧ r.contains d e = true := by
  unfold RoundingInterval.onGrid? at h
  dsimp only at h
  rw [show r.value * Nat.pow 10 (-e).toNat / (r.denominator * Nat.pow 10 e.toNat) = gridFloor r e from rfl] at h
  split at h
  · next hfloor hnext =>
    have hround : ∀ num den : Nat, roundEven num den = num / den ∨ roundEven num den = num / den + 1 := by
      intro num den
      unfold roundEven
      dsimp only
      split_ifs
      all_goals omega
    rcases hround (r.value * Nat.pow 10 (-e).toNat) (r.denominator * Nat.pow 10 e.toNat) with hr | hr
    · rw [hr] at h
      cases h
      exact ⟨.inl rfl, hfloor⟩
    · rw [hr] at h
      cases h
      exact ⟨.inr rfl, hnext⟩
  · next hfloor _ =>
    cases h
    exact ⟨.inl rfl, hfloor⟩
  · next _ hnext =>
    cases h
    exact ⟨.inr rfl, hnext⟩
  · cases h

variable (hvalue : 0 < r.value) (hden : 0 < r.denominator)

include hvalue hden

/-- On the grid of the `k + 1`-th digit the value has so many digits. -/
theorem gridFloor_bounds (k : Nat) :
    let e := leadingExponent r.value r.denominator - k
    10 ^ k ≤ gridFloor r e ∧ gridFloor r e < 10 ^ (k + 1) ∧ (gridFloor r e : ℚ) * 10 ^ e ≤ r.value / r.denominator := by
  intro e
  obtain ⟨hlow, hhigh⟩ := leadingExponent_spec hvalue hden
  have hd : (0 : ℚ) < r.denominator := by exact_mod_cast hden
  have hunit : 0 < r.denominator * Nat.pow 10 e.toNat := Nat.mul_pos hden (Nat.pow_pos (by decide))
  -- a number of units of the grid, against the value
  have hcompare (c : Nat) : c * (r.denominator * Nat.pow 10 e.toNat) ≤ r.value * Nat.pow 10 (-e).toNat ↔
      (c : ℚ) * 10 ^ e ≤ r.value / r.denominator := by
    rw [zpow_eq_div, mul_div_assoc', div_le_div_iff₀ (by positivity) hd, ← Nat.cast_le (α := ℚ)]
    simp only [Nat.pow_eq]
    push_cast
    rw [mul_right_comm, mul_assoc]
  have hpower (j : Nat) : ((10 ^ j : Nat) : ℚ) * 10 ^ e = 10 ^ (j + e) := by
    rw [zpow_add₀ (by norm_num), zpow_natCast]
    push_cast
    rfl
  refine ⟨?_, ?_, ?_⟩
  · rw [gridFloor, Nat.le_div_iff_mul_le hunit, hcompare, hpower]
    rwa [show (k : Int) + e = leadingExponent r.value r.denominator by omega]
  · rw [gridFloor, Nat.div_lt_iff_lt_mul hunit]
    refine not_le.1 fun hle => ?_
    rw [hcompare, hpower] at hle
    rw [show ((k + 1 : Nat) : Int) + e = leadingExponent r.value r.denominator + 1 by omega] at hle
    exact absurd hhigh (not_lt.2 hle)
  · exact (hcompare _).1 (Nat.div_mul_le_self _ _)

end Interval

theorem roundingInterval_div (m : Nat) (q : Int) :
    ((roundingInterval m q).value : ℚ) / (roundingInterval m q).denominator = m * 2 ^ q ∧
      ((roundingInterval m q).high : ℚ) / (roundingInterval m q).denominator = (m + 1 / 2) * 2 ^ q := by
  have hpower : (0 : ℚ) < 2 ^ (-q).toNat := by positivity
  rw [zpow_eq_div]
  simp only [roundingInterval, Nat.pow_eq]
  push_cast
  constructor
  · field_simp
  · field_simp
    ring

/-- The shortest decimal of a positive number has as many digits as its exponent is below the leading one, seventeen
at most, and is not above the numbers that round to the same double. -/
theorem shortest_spec {m : Nat} (hm : 0 < m) (q : Int) :
    ∃ k ≤ 16, ∃ p : Int, (10 : ℚ) ^ p ≤ m * 2 ^ q ∧ (m : ℚ) * 2 ^ q < 10 ^ (p + 1) ∧
      (shortest m q).2 = p - (k : Nat) ∧ 10 ^ k ≤ (shortest m q).1 ∧ (shortest m q).1 ≤ 10 ^ (k + 1) ∧
      ((shortest m q).1 : ℚ) * 10 ^ (shortest m q).2 ≤ (m + 1 / 2) * 2 ^ q := by
  obtain ⟨hquotient, hhigh⟩ := roundingInterval_div m q
  have hvalue : 0 < (roundingInterval m q).value := Nat.mul_pos (by omega) (Nat.pow_pos two_pos)
  have hden : 0 < (roundingInterval m q).denominator := Nat.mul_pos (by decide) (Nat.pow_pos two_pos)
  obtain ⟨hlow, hupper⟩ := leadingExponent_spec hvalue hden
  have hgrid := gridFloor_bounds hvalue hden
  have hbelow : (m : ℚ) * 2 ^ q ≤ (m + 1 / 2) * 2 ^ q := by
    gcongr
    norm_num
  rw [hquotient] at hlow hupper hgrid
  unfold shortest
  dsimp only
  generalize roundingInterval m q = r at *
  generalize leadingExponent r.value r.denominator = p at *
  split
  · next found hfound =>
    obtain ⟨e, he, hsome⟩ := List.exists_of_findSome?_eq_some hfound
    obtain ⟨k, hk, rfl⟩ := List.mem_map.1 he
    obtain ⟨d, hd, rfl⟩ := Option.map_eq_some_iff.1 hsome
    obtain ⟨hneighbour, hcontains⟩ := contains_of_onGrid? hd
    obtain ⟨hfew, hmany, -⟩ := hgrid k
    have hbound := le_of_contains hden hcontains
    rw [hhigh] at hbound
    dsimp only
    exact ⟨k, Nat.le_of_lt_succ (List.mem_range.1 hk), p, hlow, hupper, rfl, by omega, by omega, hbound⟩
  · -- the sixteenth digit behind the leading one is the last, and what is below the value is taken
    obtain ⟨hfew, hmany, hbound⟩ := hgrid 16
    have hexponent : (16 - p).toNat = (-(p - (16 : Nat))).toNat := by omega
    rw [hexponent]
    exact ⟨16, le_rfl, p, hlow, hupper, rfl, hfew, hmany.le, hbound.trans hbelow⟩

/-! ## The digits that are written -/

/-- Digits without a zero at either end, of which the first has the exponent `p`, and a bound for the number
they give. -/
structure Spelled (digits : List Char) (p : Int) (bound : ℚ) : Prop where
  digit : ∀ c ∈ digits, c.isDigit = true
  ne_nil : digits ≠ []
  head : digits.head? ≠ some '0'
  length : digits.length ≤ 18
  small : Nat.ofDigitChars 10 digits 0 ≤ 10 ^ 17
  pos : 0 < Nat.ofDigitChars 10 digits 0
  le : (Nat.ofDigitChars 10 digits 0 : ℚ) * 10 ^ (p + 1 - digits.length) ≤ bound

theorem exists_zeros (digits : List Char) :
    ∃ n, digits = (digits.reverse.dropWhile (· == '0')).reverse ++ List.replicate n '0' := by
  refine ⟨(digits.reverse.takeWhile (· == '0')).length, ?_⟩
  have hzeros : digits.reverse.takeWhile (· == '0') =
      List.replicate (digits.reverse.takeWhile (· == '0')).length '0' :=
    List.eq_replicate_of_mem fun c hc => by simpa using List.mem_takeWhile_imp hc
  have hsplit : digits.reverse.takeWhile (· == '0') ++ digits.reverse.dropWhile (· == '0') = digits.reverse :=
    List.takeWhile_append_dropWhile
  rw [hzeros] at hsplit
  rw [← List.reverse_inj, List.reverse_append, List.reverse_reverse, List.reverse_replicate, hsplit]

/-- The digits of a number stay a spelling of it when zeros at their end are dropped. -/
theorem spelled_dropZeros {d : Nat} {e : Int} {bound : ℚ} (hpos : 0 < d) (hsmall : d ≤ 10 ^ 17)
    (hle : (d : ℚ) * 10 ^ e ≤ bound) :
    Spelled ((Nat.toDigits 10 d).reverse.dropWhile (· == '0')).reverse (e + (Nat.toDigits 10 d).length - 1) bound := by
  obtain ⟨n, hdigits⟩ := exists_zeros (Nat.toDigits 10 d)
  generalize ((Nat.toDigits 10 d).reverse.dropWhile (· == '0')).reverse = kept at *
  have hvalue : Nat.ofDigitChars 10 kept 0 * 10 ^ n = d := by
    rw [Nat.mul_comm, ← Nat.ofDigitChars_replicate_zero, ← Nat.ofDigitChars_append, ← hdigits,
      Nat.ofDigitChars_ten_toDigits]
  have hne : kept ≠ [] := by
    rintro rfl
    rw [Nat.ofDigitChars_nil, Nat.zero_mul] at hvalue
    omega
  refine ⟨fun c hc => ?_, hne, ?_, ?_, ?_, ?_, ?_⟩
  · exact isDigit_of_mem_toDigits (hdigits ▸ List.mem_append_left _ hc)
  · rw [← List.head?_append_of_ne_nil kept hne, ← hdigits]
    exact head?_toDigits_ne_zero hpos
  · have hbelow : d < 10 ^ 18 := hsmall.trans_lt (by decide)
    have hall := (Nat.length_toDigits_le_iff (by decide) (by decide)).2 hbelow
    rw [hdigits, List.length_append] at hall
    omega
  · exact le_trans (Nat.le_mul_of_pos_right _ (by positivity)) (hvalue.trans_le hsmall)
  · exact Nat.pos_of_mul_pos_right (hvalue.symm ▸ hpos)
  · have hexponent : e + ((Nat.toDigits 10 d).length : Int) - 1 + 1 - (kept.length : Int) = e + (n : Nat) := by
      rw [hdigits, List.length_append, List.length_replicate]
      push_cast
      ring
    have hscaled : (Nat.ofDigitChars 10 kept 0 : ℚ) * 10 ^ (e + (n : Int)) = d * 10 ^ e := by
      rw [← hvalue, zpow_add₀ (by norm_num), zpow_natCast]
      push_cast
      ring
    rw [hexponent, hscaled]
    exact hle

variable {x : Binary64}

/-- The significand of a finite number has 53 binary digits at most, and its exponent is between the least and the
greatest. -/
theorem magnitude_bounds (h : x.isFinite = true) :
    x.magnitude.1 < 2 ^ 53 ∧ -1074 ≤ x.magnitude.2 ∧ x.magnitude.2 ≤ 971 := by
  have hfield : x.exponentField < 2047 := of_decide_eq_true h
  have hfraction : x.fractionField < Nat.pow 2 52 := Nat.mod_lt _ (by decide)
  have hsize : Nat.pow 2 52 = 4503599627370496 := rfl
  unfold magnitude
  split_ifs
  · exact ⟨by dsimp only; omega, le_rfl, by dsimp only; omega⟩
  · exact ⟨by dsimp only; omega, by dsimp only; omega, by dsimp only; omega⟩

theorem magnitude_pos (h : x.isZero = false) : 0 < x.magnitude.1 := by
  have hbits : x.absBits ≠ 0 := by simpa [isZero] using h
  have hdiv : Nat.pow 2 52 * x.exponentField + x.fractionField = x.absBits := Nat.div_add_mod _ _
  have hsize : 0 < Nat.pow 2 52 := by decide
  unfold magnitude
  split_ifs with hfield
  · rw [hfield, Nat.mul_zero, Nat.zero_add] at hdiv
    dsimp only
    omega
  · dsimp only
    omega

/-- No finite number but zero is below a power of ten beyond the least one. -/
theorem exponent_lower_bound {m : Nat} (hm : 0 < m) {q p : Int} (hq : -1074 ≤ q) (h : (m : ℚ) * 2 ^ q < 10 ^ (p + 1)) :
    -1074 ≤ p := by
  have hone : (1 : ℚ) ≤ m := by exact_mod_cast hm
  have hpowers : (10 : ℚ) ^ (-(1074 : Nat) : Int) < 10 ^ (p + 1) :=
    calc (10 : ℚ) ^ (-(1074 : Nat) : Int) ≤ 2 ^ (-(1074 : Nat) : Int) := by
          rw [zpow_neg, zpow_neg, zpow_natCast, zpow_natCast]
          gcongr
          norm_num
      _ ≤ 2 ^ q := zpow_le_zpow_right₀ one_le_two hq
      _ ≤ m * 2 ^ q := le_mul_of_one_le_left (by positivity) hone
      _ < 10 ^ (p + 1) := h
  have := (zpow_lt_zpow_iff_right₀ (by norm_num : (1 : ℚ) < 10)).1 hpowers
  omega

/-- A decimal that rounds to a finite number has no digit beyond the greatest one. -/
theorem exponent_upper_bound {m : Nat} (hm : m < 2 ^ 53) {q : Int} (hq : q ≤ 971) {d n : Nat} (hn : 0 < n)
    (hdigits : 10 ^ (n - 1) ≤ d) {e : Int} (h : (d : ℚ) * 10 ^ e ≤ (m + 1 / 2) * 2 ^ q) : e + n - 1 ≤ 1024 := by
  have hd : (10 : ℚ) ^ ((n : Int) - 1) ≤ d := by
    rw [show (n : Int) - 1 = (n - 1 : Nat) by omega, zpow_natCast]
    exact_mod_cast hdigits
  have hhalf : (m : ℚ) + 1 / 2 ≤ 2 ^ (53 : Nat) := by
    have hbelow : (m : ℚ) + 1 ≤ 2 ^ (53 : Nat) := by exact_mod_cast hm
    linarith
  have hpowers : (10 : ℚ) ^ (e + n - 1) ≤ 10 ^ ((1024 : Nat) : Int) :=
    calc (10 : ℚ) ^ (e + n - 1) = 10 ^ ((n : Int) - 1) * 10 ^ e := by
          rw [← zpow_add₀ (by norm_num)]
          congr 1
          ring
      _ ≤ d * 10 ^ e := by gcongr
      _ ≤ (m + 1 / 2) * 2 ^ q := h
      _ ≤ 2 ^ (53 : Nat) * 2 ^ (971 : Int) := by
          gcongr
          exact one_le_two
      _ = 2 ^ ((1024 : Nat) : Int) := by
          rw [← zpow_natCast, ← zpow_add₀ two_ne_zero]
          rfl
      _ ≤ 10 ^ ((1024 : Nat) : Int) := by
          rw [zpow_natCast, zpow_natCast]
          gcongr
          norm_num
  exact (zpow_le_zpow_iff_right₀ (by norm_num : (1 : ℚ) < 10)).1 hpowers

/-- The digits that are written of a finite number other than zero, with an exponent of four digits at most. -/
theorem spelled (hfinite : x.isFinite = true) (hzero : x.isZero = false) :
    Spelled x.digitsAndExponent.1 x.digitsAndExponent.2 ((x.magnitude.1 + 1 / 2) * 2 ^ x.magnitude.2) ∧
      x.digitsAndExponent.2.natAbs < 10 ^ 4 := by
  obtain ⟨hdigits, hleast, hgreatest⟩ := magnitude_bounds hfinite
  have hpos := magnitude_pos hzero
  unfold digitsAndExponent
  obtain ⟨k, hk, p, -, hhigh, he, hfew, hmany, hle⟩ := shortest_spec hpos x.magnitude.2
  dsimp only
  generalize x.magnitude.1 = m at *
  generalize x.magnitude.2 = q at *
  generalize (shortest m q).1 = d at *
  generalize (shortest m q).2 = e at *
  have hd : 0 < d := lt_of_lt_of_le (by positivity) hfew
  have hsmall : d ≤ 10 ^ 17 := hmany.trans (Nat.pow_le_pow_right (by decide) (by omega))
  refine ⟨spelled_dropZeros hd hsmall hle, ?_⟩
  obtain ⟨hshort, hlong⟩ := toDigits_bounds hd
  generalize (Nat.toDigits 10 d).length = n at *
  have hlength : k < n := (Nat.pow_lt_pow_iff_right (by decide : 1 < 10)).1 (hfew.trans_lt hlong)
  have hfrom : -1074 ≤ p := exponent_lower_bound hpos hleast hhigh
  have hto : e + n - 1 ≤ 1024 := exponent_upper_bound hdigits hgreatest (by omega) hshort hle
  omega

end Binary64

end ProxyFleet
