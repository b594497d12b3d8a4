import Mathlib.Algebra.Ring.Int.Defs
import ProxyFleet.Number.Word64
import ProxyFleet.Proofs.Json.Record

/-!
# Integers of 64 bits

* `Word64.ofInt?_eq_some`, `Word64.ofInt?_eq_none` : which integers are within 64 bits;
* `Word64.wrap_eq_self_iff` : which stay as they are when they wrap;
* `Binary64.isNegative_ofRatio`, `Binary64.isNegative_mul` : the signs of doubles;
* `Word64.ofDouble_nonneg` : from a double without a sign no integer below zero is made.
-/

namespace ProxyFleet

set_option autoImplicit false

/-! ## Integers beyond 64 bits -/

namespace Word64

variable {i : Int}

theorem ofInt?_eq_some (h : SixtyFourBits i) : ofInt? i = some i := if_pos h

theorem ofInt?_eq_none (h : ¬ SixtyFourBits i) : ofInt? i = none := if_neg h

theorem wrap_eq_self_iff : wrap i = i ↔ SixtyFourBits i := by
  have hsize : Nat.pow 2 63 = 9223372036854775808 := rfl
  have hmodulus : Nat.pow 2 64 = 18446744073709551616 := rfl
  rw [wrap, hmodulus, Int.bmod_def, SixtyFourBits, hsize]
  split_ifs
  · omega
  · omega

end Word64

/-! ## Signs -/

namespace Binary64

theorem isNegative_ofSignAndBits (negative : Bool) {abs : Nat} (h : abs < 2 ^ 63) :
    (ofSignAndBits negative abs).isNegative = negative := by
  have hsign : Nat.pow 2 63 = 2 ^ 63 := rfl
  rw [isNegative, ofSignAndBits, UInt64.toNat_ofNat', hsign]
  cases negative with
  | true =>
    rw [if_pos rfl]
    exact decide_eq_true (by omega)
  | false =>
    rw [if_neg Bool.false_ne_true]
    exact decide_eq_false (by omega)

theorem isNegative_ofRatio (negative : Bool) (num den : Nat) : (ofRatio negative num den).isNegative = negative := by
  have hbits : nearestBits num den ≤ 2047 * 2 ^ 52 := Nat.min_le_right _ _
  refine isNegative_ofSignAndBits negative ?_
  split_ifs
  · decide
  · omega

theorem isNegative_mul {x y : Binary64} (hx : x.isNegative = false) (hy : y.isNegative = false) :
    (x.mul y).isNegative = false := by
  unfold mul
  rw [hx, hy]
  dsimp only
  split_ifs
  · decide
  · decide
  · exact isNegative_ofSignAndBits _ (by decide)
  · exact isNegative_ofRatio _ _ _

end Binary64

theorem Word64.ofDouble_nonneg {x : Binary64} (h : x.isNegative = false) : 0 ≤ ofDouble x := by
  unfold ofDouble
  rw [h]
  split_ifs
  · exact Int.le_refl 0
  · contradiction
  · decide
  · have hround : 0 ≤ x.roundToInt := by
      rw [Binary64.roundToInt, h]
      exact Int.natCast_nonneg _
    have hgreatest : 0 ≤ greatest := by decide
    unfold clamp
    omega

end ProxyFleet
