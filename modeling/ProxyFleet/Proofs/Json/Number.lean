import ProxyFleet.Json.Printer
import ProxyFleet.Proofs.Json.Decimal
import ProxyFleet.Proofs.Json.Digits

/-!
# The text of a number

What is read of a number's text does not depend on what follows the number. An integer of 64 bits is
read as it is written, and one beyond them as a double, if at all. A finite double is read as a double,
though not always as the same one.

* `Binary64.decimalText`, `Binary64.toList_jsonText` : what is written of a double;
* `Binary64.decimalText_proper`, `Binary64.exists_decimal?_decimalText` : it can be read;
* `JsonNumber.Definite`, `JsonNumber.definite_int`, `JsonNumber.definite_float` : what is read of a number;
* `JsonNumber.Legible`, `JsonNumber.legible_int` : numbers that are read as they are written.
-/

namespace ProxyFleet

set_option autoImplicit false

/-! ## Doubles -/

namespace Binary64

open Json

/-- Digits around the point, with one at least behind it. -/
def positionalText (digits : List Char) (p : Int) : DecimalText :=
  ⟨(positional digits p).1, if (positional digits p).2 = [] then ['0'] else (positional digits p).2, none⟩

/-- One digit before the point, and an exponent. -/
def scientificText (digits : List Char) (p : Int) : DecimalText := ⟨digits.take 1, digits.drop 1, some p⟩

/-- What is written of a finite double, behind its sign. -/
def decimalText (x : Binary64) : DecimalText :=
  if x.isZero then ⟨['0'], ['0'], none⟩
  else if -5 ≤ x.digitsAndExponent.2 ∧ x.digitsAndExponent.2 < 16 then
    positionalText x.digitsAndExponent.1 x.digitsAndExponent.2
  else scientificText x.digitsAndExponent.1 x.digitsAndExponent.2

theorem toList_jsonText (x : Binary64) :
    x.jsonText.toList = (if x.isNegative then ['-'] else []) ++ x.decimalText.chars := by
  have hsign : (if x.isNegative then "-" else "").toList = if x.isNegative then ['-'] else [] := by
    split_ifs
    all_goals rfl
  unfold jsonText decimalText
  by_cases hzero : x.isZero = true
  · simp [hzero, hsign, DecimalText.chars, DecimalText.exponentPart]
  obtain ⟨digits, p⟩ := x.digitsAndExponent
  by_cases hplace : -5 ≤ p ∧ p < 16
  · by_cases hnone : (positional digits p).2 = []
    · simp [hzero, hplace, hsign, hnone, positionalText, DecimalText.chars, DecimalText.exponentPart]
    · simp [hzero, hplace, hsign, hnone, positionalText, DecimalText.chars, DecimalText.exponentPart]
  · have hbelow : (if p < 0 then "-" else "+").toList = [if p < 0 then '-' else '+'] := by
      split_ifs
      all_goals rfl
    by_cases hnone : digits.tail = []
    · simp [hzero, hplace, hsign, hnone, hbelow, scientificText, DecimalText.chars, DecimalText.exponentPart,
        DecimalText.exponentChars]
    · simp [hzero, hplace, hsign, hnone, hbelow, scientificText, DecimalText.chars, DecimalText.exponentPart,
        DecimalText.exponentChars]

theorem ofDigitChars_lt {digits : List Char} (h : ∀ c ∈ digits, c.isDigit = true) (value : Nat) :
    Nat.ofDigitChars 10 digits value < (value + 1) * 10 ^ digits.length := by
  induction digits generalizing value with
  | nil => simp
  | cons c digits ih =>
    obtain ⟨hc, hdigits⟩ := List.forall_mem_cons.1 h
    have hdigit : c.toNat - '0'.toNat ≤ 9 := Nat.sub_le_sub_right (Char.isDigit_iff_toNat.1 hc).2 _
    rw [Nat.ofDigitChars_cons, List.length_cons, pow_succ']
    calc Nat.ofDigitChars 10 digits (10 * value + (c.toNat - '0'.toNat))
        < (10 * value + (c.toNat - '0'.toNat) + 1) * 10 ^ digits.length := ih hdigits _
      _ ≤ (10 * (value + 1)) * 10 ^ digits.length := Nat.mul_le_mul_right _ (by omega)
      _ = (value + 1) * (10 * 10 ^ digits.length) := by ring

section Layouts

variable {digits : List Char} {p : Int} {bound : ℚ} (h : Spelled digits p bound)

include h

/-- Of a number below one the zeros behind the point do not count. -/
theorem positionalText_proper_of_neg (hlow : -5 ≤ p) (hneg : p < 0) : (positionalText digits p).Proper := by
  have hlength := h.length
  have htext : positionalText digits p = ⟨['0'], List.replicate (-p - 1).toNat '0' ++ digits, none⟩ := by
    simp [positionalText, positional, hneg, h.ne_nil]
  rw [htext]
  refine ⟨⟨by simp, by simp, fun _ => rfl⟩, fun c hc => ?_, ?_, by simp [h.ne_nil], ?_, by simp⟩
  · rcases List.mem_append.1 hc with hc | hc
    · rw [List.eq_of_mem_replicate hc]
      rfl
    · exact h.digit c hc
  · have hzeros : Nat.ofDigitChars 10 ('0' :: List.replicate (-p - 1).toNat '0') 0 = 0 :=
      Nat.ofDigitChars_replicate_zero (n := (-p - 1).toNat + 1)
    show Nat.ofDigitChars 10 ('0' :: (List.replicate (-p - 1).toNat '0' ++ digits)) 0 < _
    rw [← List.cons_append, Nat.ofDigitChars_append, hzeros]
    exact h.small.trans_lt (by decide)
  · rw [List.length_append, List.length_replicate]
    omega

/-- Of another number there are few digits before the point. -/
theorem positionalText_proper_of_nonneg (hnonneg : 0 ≤ p) (hhigh : p < 16) : (positionalText digits p).Proper := by
  obtain ⟨k, rfl⟩ := Int.eq_ofNat_of_zero_le hnonneg
  have htext : positionalText digits k = ⟨digits.take (k + 1) ++ List.replicate (k + 1 - digits.length) '0',
      if digits.drop (k + 1) = [] then ['0'] else digits.drop (k + 1), none⟩ := by
    simp [positionalText, positional, Int.not_lt.2 hnonneg]
  have hwhole : ∀ c ∈ digits.take (k + 1) ++ List.replicate (k + 1 - digits.length) '0', c.isDigit = true := by
    intro c hc
    rcases List.mem_append.1 hc with hc | hc
    · exact h.digit c (List.mem_of_mem_take hc)
    · rw [List.eq_of_mem_replicate hc]
      rfl
  have hfraction : ∀ c ∈ if digits.drop (k + 1) = [] then ['0'] else digits.drop (k + 1), c.isDigit = true := by
    split_ifs
    · simp
    · exact fun c hc => h.digit c (List.mem_of_mem_drop hc)
  have htaken : digits.take (k + 1) ≠ [] := by simp [h.ne_nil]
  have hhead : (digits.take (k + 1) ++ List.replicate (k + 1 - digits.length) '0').head? ≠ some '0' := by
    rw [List.head?_append_of_ne_nil _ htaken, List.head?_take, if_neg (by omega)]
    exact h.head
  have hlength : (digits.take (k + 1) ++ List.replicate (k + 1 - digits.length) '0' ++
      if digits.drop (k + 1) = [] then ['0'] else digits.drop (k + 1)).length ≤ 19 := by
    have := h.length
    split_ifs with hnone
    · have := List.length_eq_zero_iff.2 hnone
      simp only [List.length_append, List.length_take, List.length_replicate, List.length_drop, List.length_singleton]
        at this ⊢
      omega
    · simp only [List.length_append, List.length_take, List.length_replicate, List.length_drop]
      omega
  rw [htext]
  refine ⟨⟨hwhole, by simp [htaken], fun hzero => absurd hzero hhead⟩, hfraction, ?_, ?_, ?_, by simp⟩
  · refine (ofDigitChars_lt (List.forall_mem_append.2 ⟨hwhole, hfraction⟩) 0).trans_le ?_
    rw [Nat.zero_add, Nat.one_mul]
    exact (Nat.pow_le_pow_right (by decide) hlength).trans (by decide)
  · dsimp only
    split_ifs with hnone
    · simp
    · exact fun h => absurd h hnone
  · rw [List.length_append] at hlength
    dsimp only
    omega

theorem scientificText_proper (hp : p.natAbs < 10 ^ 4) : (scientificText digits p).Proper := by
  obtain ⟨c, tail, rfl⟩ := List.exists_cons_of_ne_nil h.ne_nil
  obtain ⟨hc, htail⟩ := List.forall_mem_cons.1 h.digit
  have hlength : tail.length < 10 ^ 4 := by
    have := h.length
    rw [List.length_cons] at this
    omega
  exact {
    whole := ⟨by simpa [scientificText] using hc, by simp [scientificText], fun _ => rfl⟩
    fraction := htail
    fits := h.small.trans_lt (by decide)
    double := fun _ => rfl
    short := hlength
    small := by
      rintro _ ⟨⟩
      exact hp }

end Layouts

variable {x : Binary64}

theorem decimalText_proper (h : x.isFinite = true) : x.decimalText.Proper := by
  unfold decimalText
  split_ifs with hzero hplace
  · exact ⟨⟨by simp, by simp, fun _ => rfl⟩, by simp, by decide, by simp, by decide, by simp⟩
  · have hspelled := (spelled h (Bool.eq_false_iff.2 hzero)).1
    rcases Int.lt_or_le x.digitsAndExponent.2 0 with hneg | hnonneg
    · exact positionalText_proper_of_neg hspelled hplace.1 hneg
    · exact positionalText_proper_of_nonneg hspelled hnonneg hplace.2
  · obtain ⟨hspelled, hsmall⟩ := spelled h (Bool.eq_false_iff.2 hzero)
    exact scientificText_proper hspelled hsmall

/-- What is written of a finite double can be read. -/
theorem exists_decimal?_decimalText (h : x.isFinite = true) (negative : Bool) :
    ∃ y, decimal? negative x.decimalText.significand x.decimalText.scale = some y := by
  have hfits := (decimalText_proper h).fits
  by_cases hscale : x.decimalText.scale ≤ 0
  · exact exists_decimal? (scaleByTen?_of_nonpos (isFinite_ofNat hfits) hscale 3) negative
  unfold decimalText at hscale ⊢
  split_ifs at hscale ⊢ with hzero hplace
  · exact absurd (by decide) hscale
  · refine absurd ?_ hscale
    show (0 : Int) - (positionalText _ _).fraction.length ≤ 0
    omega
  · have hspelled := (spelled h (Bool.eq_false_iff.2 hzero)).1
    obtain ⟨y, hy⟩ := exists_decimal?_spelled h (Bool.eq_false_iff.2 hzero) negative
    generalize x.digitsAndExponent = d at *
    obtain ⟨digits, p⟩ := d
    obtain ⟨c, tail, rfl⟩ := List.exists_cons_of_ne_nil hspelled.ne_nil
    refine ⟨y, ?_⟩
    have hscale : (scientificText (c :: tail) p).scale = p + 1 - (c :: tail).length := by
      rw [List.length_cons]
      show p - (tail.length : Int) = _
      omega
    rw [hscale]
    exact hy

end Binary64

/-! ## Numbers -/

/-- What is read of the text of a number. -/
def JsonNumber.reread? (n : JsonNumber) : Option JsonNumber := (Json.readNumber? (Json.numberChars n)).map (·.1)

/-- A number of whose text the same is read, whatever follows it. -/
structure JsonNumber.Definite (n : JsonNumber) : Prop where
  head : ∃ c cs, Json.numberChars n = c :: cs ∧ (c.isDigit = true ∨ c = '-')
  read : ∀ rest, Json.Ends rest → Json.readNumber? (Json.numberChars n ++ rest) = n.reread?.map (·, rest)

/-- A number that is read as it is written, whatever follows it. -/
structure JsonNumber.Legible (n : JsonNumber) : Prop where
  head : ∃ c cs, Json.numberChars n = c :: cs ∧ (c.isDigit = true ∨ c = '-')
  read : ∀ rest, Json.Ends rest → Json.readNumber? (Json.numberChars n ++ rest) = some (n, rest)

namespace JsonNumber

/-- What is read behind a sign settles what is read of a number. -/
theorem definite_of_unsigned {n : JsonNumber} {negative : Bool} {digits : List Char}
    (htext : Json.numberChars n = (if negative then ['-'] else []) ++ digits)
    (hdigits : ∃ c cs, digits = c :: cs ∧ c.isDigit = true) {n? : Option JsonNumber}
    (hread : ∀ rest, Json.Ends rest → Json.readUnsigned? negative (digits ++ rest) = n?.map (·, rest)) :
    n.Definite ∧ n.reread? = n? := by
  obtain ⟨c, cs, rfl, hc⟩ := hdigits
  have hnumber : ∀ rest, Json.Ends rest → Json.readNumber? (Json.numberChars n ++ rest) = n?.map (·, rest) := by
    intro rest hrest
    rw [← hread rest hrest, htext]
    cases negative with
    | true => rfl
    | false =>
      show Json.readNumber? (c :: (cs ++ rest)) = Json.readUnsigned? false (c :: (cs ++ rest))
      unfold Json.readNumber?
      split
      · next heq =>
        rw [(List.cons.inj heq).1] at hc
        exact absurd hc (by decide)
      · rfl
  have hreread : n.reread? = n? := by
    have hall := hnumber [] (by simp [Json.Ends])
    rw [List.append_nil] at hall
    rw [reread?, hall, Option.map_map]
    exact Option.map_id'
  refine ⟨⟨?_, fun rest hrest => ?_⟩, hreread⟩
  · cases negative with
    | true => exact ⟨'-', c :: cs, htext, .inr rfl⟩
    | false => exact ⟨c, cs, htext, .inl hc⟩
  · rw [hreread]
    exact hnumber rest hrest

/-- A number is read as it is written if that is what is read of it, whatever follows. -/
theorem legible_iff {n : JsonNumber} : n.Legible ↔ n.Definite ∧ n.reread? = some n := by
  constructor
  · intro h
    have hall := h.read [] (by simp [Json.Ends])
    rw [List.append_nil] at hall
    have hreread : n.reread? = some n := by rw [reread?, hall, Option.map_some]
    refine ⟨⟨h.head, fun rest hrest => ?_⟩, hreread⟩
    rw [hreread]
    exact h.read rest hrest
  · rintro ⟨hdefinite, hreread⟩
    refine ⟨hdefinite.head, fun rest hrest => ?_⟩
    rw [hdefinite.read rest hrest, hreread, Option.map_some]

theorem numberChars_int (i : Int) :
    Json.numberChars (.int i) = (if decide (i < 0) then ['-'] else []) ++ Nat.toDigits 10 i.natAbs := by
  rw [Json.numberChars, Int.toString_eq_repr, Int.repr_eq_if]
  by_cases hsign : 0 ≤ i
  · rw [if_pos hsign, decide_eq_false (by omega), Nat.toList_repr, show i.toNat = i.natAbs by omega]
    rfl
  · rw [if_neg hsign, decide_eq_true (by omega), String.toList_append, Nat.toList_repr,
      show (-i).toNat = i.natAbs by omega]
    rfl

theorem whole_toDigits (n : Nat) : Json.Whole (Nat.toDigits 10 n) where
  digit _ hc := isDigit_of_mem_toDigits hc
  ne_nil := Nat.toDigits_ne_nil
  lead hzero := by
    rcases Nat.eq_zero_or_pos n with rfl | hn
    · rfl
    · exact absurd hzero (head?_toDigits_ne_zero hn)

/-- What is read of an integer, if it is one, is that integer. -/
theorem definite_int (i : Int) :
    (JsonNumber.int i).Definite ∧ ∀ j, (JsonNumber.int i).reread? = some (.int j) → j = i := by
  obtain ⟨n?, hint, hread⟩ := (whole_toDigits i.natAbs).exists_readUnsigned? (decide (i < 0))
  obtain ⟨hdefinite, hreread⟩ := definite_of_unsigned (numberChars_int i) (whole_toDigits _).head hread
  refine ⟨hdefinite, fun j hj => ?_⟩
  rw [hint j (hreread ▸ hj), Nat.ofDigitChars_ten_toDigits]
  simp only [decide_eq_true_eq]
  split_ifs
  all_goals omega

theorem legible_int {i : Int} (hlow : -(Nat.pow 2 63 : Int) ≤ i) (hhigh : i < Nat.pow 2 64) :
    (JsonNumber.int i).Legible := by
  have hpow : Nat.pow 2 64 = 2 * Nat.pow 2 63 := rfl
  have hvalue : Nat.ofDigitChars 10 (Nat.toDigits 10 i.natAbs) 0 = i.natAbs := Nat.ofDigitChars_ten_toDigits
  have hread : ∀ rest, Json.Ends rest →
      Json.readUnsigned? (decide (i < 0)) (Nat.toDigits 10 i.natAbs ++ rest) = (some (.int i)).map (·, rest) := by
    intro rest hrest
    have hfits : Nat.ofDigitChars 10 (Nat.toDigits 10 i.natAbs) 0 < Nat.pow 2 64 := by omega
    have hend : ¬Json.startsFraction rest = true := by simp [Json.startsFraction_of_ends hrest]
    rw [(whole_toDigits i.natAbs).readUnsigned?_of_lt hfits hrest.stops, if_neg hend, hvalue]
    by_cases hsign : i < 0
    · rw [decide_eq_true hsign, if_neg (by decide), if_pos (by omega), show -(i.natAbs : Int) = i by omega]
      rfl
    · rw [decide_eq_false hsign, if_pos (by decide), show (i.natAbs : Int) = i by omega]
      rfl
  exact legible_iff.2 (definite_of_unsigned (numberChars_int i) (whole_toDigits _).head hread)

/-- Of a finite double a double is read. -/
theorem definite_float {x : Binary64} (h : x.isFinite = true) :
    (JsonNumber.float x).Definite ∧ ∃ y, (JsonNumber.float x).reread? = some (.float y) := by
  have hproper := Binary64.decimalText_proper h
  obtain ⟨y, hy⟩ := Binary64.exists_decimal?_decimalText h x.isNegative
  have hread : ∀ rest, Json.Ends rest →
      Json.readUnsigned? x.isNegative (x.decimalText.chars ++ rest) = (some (.float y)).map (·, rest) := by
    intro rest hrest
    rw [Json.readUnsigned?_decimalText hproper hrest, hy]
    rfl
  have hhead : ∃ c cs, x.decimalText.chars = c :: cs ∧ c.isDigit = true := by
    obtain ⟨c, cs, hwhole, hc⟩ := hproper.whole.head
    exact ⟨c, _, by rw [Json.DecimalText.chars, hwhole, List.cons_append], hc⟩
  have htext : Json.numberChars (.float x) = (if x.isNegative then ['-'] else []) ++ x.decimalText.chars :=
    x.toList_jsonText
  obtain ⟨hdefinite, hreread⟩ := definite_of_unsigned htext hhead hread
  exact ⟨hdefinite, y, hreread⟩

/-- A double just above one is written as `1.0000000000000007`, and the next one above it is read. -/
example : (JsonNumber.float ⟨0x3ff0000000000003⟩).reread? = some (.float ⟨0x3ff0000000000004⟩) := by
  rw [reread?, Json.numberChars, Binary64.toList_jsonText]
  decide +kernel

end JsonNumber

end ProxyFleet
