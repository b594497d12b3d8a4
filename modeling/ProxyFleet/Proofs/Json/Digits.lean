import Mathlib.Data.List.Basic
import Mathlib.Tactic.SplitIfs
import ProxyFleet.Json.Reader
import ProxyFleet.Proofs.Number.Shortest

/-!
# Digits are read until they end

What is read of a number does not depend on what follows it, since nothing that may follow a value goes
on as a number. Digits are taken as long as they have 64 bits; with a point or an exponent, all of them
are taken, and give one significand that is scaled.

* `Json.Blank`, `Json.Ends` : what is passed over, and what may follow a value;
* `Json.exists_readDigits`, `Json.readDigits_append` : the digits that are taken;
* `Json.Whole`, `Json.Whole.readUnsigned?_eq`, `Json.Whole.exists_readUnsigned?` : digits that a number starts with;
* `Json.DecimalText`, `Json.readUnsigned?_decimalText` : digits with a point or an exponent.
-/

namespace ProxyFleet

set_option autoImplicit false

namespace Json

/-! ## Blanks, and what follows a value -/

/-- A character that is passed over between values. -/
def Blank (c : Char) : Prop := c = ' ' ∨ c = '\n' ∨ c = '\t' ∨ c = '\r'

/-- Behind a value nothing comes that could belong to it. -/
def Ends (rest : List Char) : Prop := ∀ c ∈ rest.head?, Blank c ∨ c = ',' ∨ c = ']' ∨ c = '}'

/-- A character that a value or a field may start with. -/
def Opens (c : Char) : Prop := ¬Blank c ∧ c ≠ ']' ∧ c ≠ '}'

theorem skipBlank_append {blanks : List Char} (h : ∀ c ∈ blanks, Blank c) (rest : List Char) :
    skipBlank (blanks ++ rest) = skipBlank rest := by
  induction blanks with
  | nil => rfl
  | cons c blanks ih =>
    obtain ⟨hc, hblanks⟩ := List.forall_mem_cons.1 h
    exact (if_pos hc).trans (ih hblanks)

theorem skipBlank_cons {c : Char} (h : ¬Blank c) (rest : List Char) : skipBlank (c :: rest) = c :: rest :=
  if_neg h

theorem ends_append {blanks : List Char} (h : ∀ c ∈ blanks, Blank c) {rest : List Char} (hrest : Ends rest) :
    Ends (blanks ++ rest) := by
  cases blanks with
  | nil => exact hrest
  | cons b blanks =>
    rintro c ⟨⟩
    exact .inl (h b List.mem_cons_self)

/-- What follows a value does not go on as a number. -/
theorem Ends.not_number {c : Char} {rest : List Char} (h : Ends (c :: rest)) :
    c.isDigit = false ∧ startsFraction (c :: rest) = false := by
  rcases h c rfl with (rfl | rfl | rfl | rfl) | rfl | rfl | rfl
  all_goals exact ⟨rfl, rfl⟩

/-! ## Digits -/

/-- No digit follows. -/
def Stops (rest : List Char) : Prop := ∀ c ∈ rest.head?, c.isDigit = false

theorem Ends.stops {rest : List Char} (h : Ends rest) : Stops rest := by
  cases rest with
  | nil => simp [Stops]
  | cons c rest =>
    rintro _ ⟨⟩
    exact h.not_number.1

theorem Ends.not_point {rest : List Char} (h : Ends rest) : '.' ∉ rest.head? := by
  intro hpoint
  have := h '.' hpoint
  simp [Blank] at this

theorem startsFraction_of_ends {rest : List Char} (h : Ends rest) : startsFraction rest = false := by
  cases rest with
  | nil => rfl
  | cons c rest => exact h.not_number.2

theorem readFraction?_of_ends {rest : List Char} (h : Ends rest) (negative : Bool) (significand : Nat)
    (exponent : Int) :
    readFraction? negative significand exponent rest =
      (decimal? negative significand exponent).map fun f => (.float f, rest) := by
  cases rest with
  | nil => rfl
  | cons c rest =>
    rcases h c rfl with (rfl | rfl | rfl | rfl) | rfl | rfl | rfl
    all_goals rfl

theorem stops_of_startsFraction {rest : List Char} (h : startsFraction rest = true) : Stops rest := by
  cases rest with
  | nil => simp [Stops]
  | cons c rest =>
    have hc : (c = '.' ∨ c = 'e') ∨ c = 'E' := by simpa [startsFraction] using h
    rintro _ ⟨⟩
    rcases hc with (rfl | rfl) | rfl
    all_goals rfl

theorem countDigits_of_stops {rest : List Char} (h : Stops rest) : countDigits rest = (0, rest) := by
  cases rest with
  | nil => rfl
  | cons c rest => rw [countDigits, h c rfl, if_neg Bool.false_ne_true]

section Digits

variable {digits : List Char} (hdigits : ∀ c ∈ digits, c.isDigit = true)

theorem le_ofDigitChars (digits : List Char) (value : Nat) : value ≤ Nat.ofDigitChars 10 digits value := by
  rw [Nat.ofDigitChars_eq_ofDigitChars_zero]
  exact Nat.le_add_right_of_le (Nat.le_mul_of_pos_left _ (Nat.pow_pos (by decide)))

include hdigits

theorem countDigits_append {rest : List Char} (hrest : Stops rest) :
    countDigits (digits ++ rest) = (digits.length, rest) := by
  induction digits with
  | nil => exact countDigits_of_stops hrest
  | cons c digits ih =>
    obtain ⟨hc, hdigits⟩ := List.forall_mem_cons.1 hdigits
    rw [List.cons_append, countDigits, if_pos hc, ih hdigits, List.length_cons]

/-- Digits are taken up to 64 bits and the others are left, whatever follows them. -/
theorem exists_readDigits (value count : Nat) :
    ∃ taken passed, digits = taken ++ passed ∧ (Nat.ofDigitChars 10 digits value < Nat.pow 2 64 → passed = []) ∧
      ∀ rest, Stops rest → readDigits (digits ++ rest) value count =
        (Nat.ofDigitChars 10 taken value, count + taken.length, passed ++ rest) := by
  induction digits generalizing value count with
  | nil =>
    refine ⟨[], [], rfl, fun _ => rfl, fun rest hrest => ?_⟩
    cases rest with
    | nil => rfl
    | cons c rest =>
      rw [List.nil_append, readDigits, hrest c rfl, if_neg fun h => Bool.false_ne_true h.1]
      rfl
  | cons c digits ih =>
    obtain ⟨hc, hdigits⟩ := List.forall_mem_cons.1 hdigits
    have hnext : 10 * value + (c.toNat - '0'.toNat) = value * 10 + digitValue c := by
      rw [digitValue, Nat.mul_comm]
    by_cases hlt : value * 10 + digitValue c < Nat.pow 2 64
    · obtain ⟨taken, passed, rfl, hfits, hread⟩ := ih hdigits (value * 10 + digitValue c) (count + 1)
      refine ⟨c :: taken, passed, rfl, fun h => hfits ?_, fun rest hrest => ?_⟩
      · rwa [Nat.ofDigitChars_cons, hnext] at h
      · rw [List.cons_append, readDigits, if_pos ⟨hc, hlt⟩, hread rest hrest, Nat.ofDigitChars_cons, hnext,
          List.length_cons]
        congr 2
        omega
    · refine ⟨[], c :: digits, rfl, fun h => absurd h ?_, fun rest _ => ?_⟩
      · rw [Nat.ofDigitChars_cons, hnext]
        exact fun h => hlt (Nat.lt_of_le_of_lt (le_ofDigitChars digits _) h)
      · rw [List.cons_append, readDigits, if_neg fun h => hlt h.2]
        rfl

theorem readDigits_append {rest : List Char} {value : Nat} (hrest : Stops rest)
    (hlt : Nat.ofDigitChars 10 digits value < Nat.pow 2 64) (count : Nat) :
    readDigits (digits ++ rest) value count =
      (Nat.ofDigitChars 10 digits value, count + digits.length, rest) := by
  obtain ⟨taken, passed, rfl, hfits, hread⟩ := exists_readDigits hdigits value count
  rw [hfits hlt, List.append_nil] at *
  exact hread rest hrest

end Digits

/-! ## Integers -/

/-- Digits that a number may start with: there is no zero before another digit. -/
structure Whole (digits : List Char) : Prop where
  digit : ∀ c ∈ digits, c.isDigit = true
  ne_nil : digits ≠ []
  lead : digits.head? = some '0' → digits.length = 1

namespace Whole

variable {digits taken passed rest : List Char} (h : Whole digits)

include h

theorem head : ∃ c cs, digits = c :: cs ∧ c.isDigit = true := by
  obtain ⟨c, cs, rfl⟩ := List.exists_cons_of_ne_nil h.ne_nil
  exact ⟨c, cs, rfl, h.digit c List.mem_cons_self⟩

/-- What follows digits decides how they are read, and that some were passed over. -/
theorem readUnsigned?_eq (htaken : digits = taken ++ passed) (hne : taken ≠ []) {value : Nat}
    (hread : readDigits (digits ++ rest) 0 0 = (value, taken.length, passed ++ rest)) (hrest : Stops rest)
    (negative : Bool) :
    readUnsigned? negative (digits ++ rest) =
      if startsFraction rest = true ∨ 0 < passed.length then readFraction? negative value passed.length rest
      else if ¬negative then some (.int value, rest)
      else if 0 < value ∧ value ≤ Nat.pow 2 63 then some (.int (-(value : Int)), rest)
      else some (.float (Binary64.ofNat value).neg, rest) := by
  have hpassed : ∀ c ∈ passed, c.isDigit = true := fun c hc => h.digit c (htaken ▸ List.mem_append_right _ hc)
  have hpos : taken.length ≠ 0 := (List.length_pos_iff.2 hne).ne'
  have hfirst : ¬((digits ++ rest).head? = some '0' ∧ 1 < taken.length) := by
    rintro ⟨hhead, hlong⟩
    rw [List.head?_append_of_ne_nil _ h.ne_nil] at hhead
    have hlength := h.lead hhead
    rw [htaken, List.length_append] at hlength
    omega
  rw [readUnsigned?, hread]
  dsimp only
  rw [countDigits_append hpassed hrest]
  dsimp only
  rw [if_neg hpos, if_neg hfirst]

/-- All digits are taken if their number has 64 bits. -/
theorem readUnsigned?_of_lt (hlt : Nat.ofDigitChars 10 digits 0 < Nat.pow 2 64) (hrest : Stops rest) (negative : Bool) :
    readUnsigned? negative (digits ++ rest) =
      if startsFraction rest = true then readFraction? negative (Nat.ofDigitChars 10 digits 0) (0 : Nat) rest
      else if ¬negative then some (.int (Nat.ofDigitChars 10 digits 0), rest)
      else if 0 < Nat.ofDigitChars 10 digits 0 ∧ Nat.ofDigitChars 10 digits 0 ≤ Nat.pow 2 63 then
        some (.int (-(Nat.ofDigitChars 10 digits 0 : Int)), rest)
      else some (.float (Binary64.ofNat (Nat.ofDigitChars 10 digits 0)).neg, rest) := by
  have hread := readDigits_append h.digit hrest hlt 0
  rw [Nat.zero_add] at hread
  have htaken : digits = digits ++ [] := (List.append_nil digits).symm
  rw [h.readUnsigned?_eq htaken h.ne_nil hread hrest]
  simp only [List.length_nil, Nat.lt_irrefl, or_false]

theorem readUnsigned?_of_startsFraction (hlt : Nat.ofDigitChars 10 digits 0 < Nat.pow 2 64)
    (hrest : startsFraction rest = true) (negative : Bool) :
    readUnsigned? negative (digits ++ rest) =
      readFraction? negative (Nat.ofDigitChars 10 digits 0) (0 : Nat) rest :=
  (h.readUnsigned?_of_lt hlt (stops_of_startsFraction hrest) negative).trans (if_pos hrest)

/-- What is read of digits does not depend on what follows them, and if it is an integer, it is their number. -/
theorem exists_readUnsigned? (negative : Bool) :
    ∃ n? : Option JsonNumber,
      (∀ i, n? = some (.int i) →
        i = if negative then -(Nat.ofDigitChars 10 digits 0 : Int) else Nat.ofDigitChars 10 digits 0) ∧
      ∀ rest, Ends rest → readUnsigned? negative (digits ++ rest) = n?.map (·, rest) := by
  obtain ⟨taken, passed, htaken, -, hread⟩ := exists_readDigits h.digit 0 0
  simp only [Nat.zero_add] at hread
  by_cases hne : taken = []
  · subst hne
    refine ⟨none, by simp, fun rest hrest => ?_⟩
    rw [readUnsigned?, hread rest hrest.stops]
    rfl
  have hread := fun rest (hrest : Ends rest) =>
    h.readUnsigned?_eq htaken hne (hread rest hrest.stops) hrest.stops negative
  by_cases hpassed : passed = []
  · subst hpassed
    rw [List.append_nil] at htaken
    subst htaken
    have hread : ∀ rest, Ends rest → readUnsigned? negative (digits ++ rest) = _ := fun rest hrest =>
      (hread rest hrest).trans (if_neg (by simp [startsFraction_of_ends hrest]))
    generalize Nat.ofDigitChars 10 digits 0 = n at *
    cases negative with
    | false => exact ⟨some (.int n), by simp, hread⟩
    | true =>
      by_cases hint : 0 < n ∧ n ≤ Nat.pow 2 63
      · simp only [hint] at hread
        exact ⟨some (.int (-n)), by simp, hread⟩
      · simp only [hint] at hread
        exact ⟨some (.float (Binary64.ofNat n).neg), by simp, hread⟩
  · -- of more digits than are taken only a double is left
    refine ⟨(decimal? negative (Nat.ofDigitChars 10 taken 0) passed.length).map .float, by simp, fun rest hrest => ?_⟩
    rw [hread rest hrest, if_pos (.inr (List.length_pos_iff.2 hpassed)), readFraction?_of_ends hrest, Option.map_map]
    rfl

end Whole

/-! ## Points and exponents -/

/-- A number that is written with a point or an exponent, without its sign. -/
structure DecimalText where
  whole : List Char
  fraction : List Char
  exponent : Option Int

namespace DecimalText

/-- What an exponent is written as. -/
def exponentChars (p : Int) : List Char := 'e' :: (if p < 0 then '-' else '+') :: Nat.toDigits 10 p.natAbs

/-- The exponent, if there is one. -/
def exponentPart (t : DecimalText) : List Char := (t.exponent.map exponentChars).getD []

/-- The text: there is no point without a digit behind it. -/
def chars (t : DecimalText) : List Char :=
  t.whole ++ ((if t.fraction = [] then [] else '.' :: t.fraction) ++ t.exponentPart)

/-- The digits as one number. -/
def significand (t : DecimalText) : Nat := Nat.ofDigitChars 10 (t.whole ++ t.fraction) 0

/-- The power of ten that the significand is scaled by. -/
def scale (t : DecimalText) : Int := t.exponent.getD 0 - t.fraction.length

/-- The text is one of a number whose digits are all taken. -/
structure Proper (t : DecimalText) : Prop where
  whole : Whole t.whole
  fraction : ∀ c ∈ t.fraction, c.isDigit = true
  fits : t.significand < Nat.pow 2 64
  double : t.fraction = [] → t.exponent.isSome = true
  short : t.fraction.length < 10 ^ 4
  small : ∀ p ∈ t.exponent, p.natAbs < 10 ^ 4

end DecimalText

section DecimalText

variable {digits : List Char} (hdigits : ∀ c ∈ digits, c.isDigit = true) {rest : List Char}

include hdigits

/-- The digits behind a point. -/
theorem readFraction?_point (hne : digits ≠ []) {significand : Nat}
    (hlt : Nat.ofDigitChars 10 digits significand < Nat.pow 2 64) (hrest : Stops rest) (hpoint : '.' ∉ rest.head?)
    (negative : Bool) (exponent : Int) :
    readFraction? negative significand exponent ('.' :: (digits ++ rest)) =
      readFraction? negative (Nat.ofDigitChars 10 digits significand) (exponent - digits.length) rest := by
  have hpos : ¬digits.length + 0 = 0 := (List.length_pos_iff.2 hne).ne'
  rw [readFraction?, readDigits_append hdigits hrest hlt, Nat.zero_add]
  dsimp only
  rw [countDigits_of_stops hrest]
  dsimp only
  rw [if_neg hpos]
  cases rest with
  | nil => rfl
  | cons c rest =>
    have hc : c ≠ '.' := fun h => hpoint (by simp [h])
    by_cases he : c = 'e'
    · subst he
      rfl
    by_cases hE : c = 'E'
    · subst hE
      rfl
    · simp [readFraction?, hc, he, hE]

omit hdigits

theorem foldl_digitValue (digits : List Char) (value : Nat) :
    digits.foldl (fun n c => n * 10 + digitValue c) value = Nat.ofDigitChars 10 digits value := by
  rw [Nat.ofDigitChars_eq_foldl]
  congr 1
  funext n c
  rw [digitValue, Nat.mul_comm]

theorem readExponent?_digits (hrest : Ends rest) {n : Nat} (hn : n < 10 ^ 4) {exponent : Int}
    (hexponent : exponent.natAbs < 10 ^ 4) (below negative : Bool) (significand : Nat) :
    readExponent? negative significand exponent ((if below then '-' else '+') :: (Nat.toDigits 10 n ++ rest)) =
      (decimal? negative significand (if below then exponent - n else exponent + n)).map fun f => (.float f, rest) := by
  have hmost : maxExponent = 2147483647 := rfl
  have hcount : countDigits (Nat.toDigits 10 n ++ rest) = ((Nat.toDigits 10 n).length, rest) :=
    countDigits_append (fun _ => isDigit_of_mem_toDigits) hrest.stops
  have hwritten : ((Nat.toDigits 10 n ++ rest).take (Nat.toDigits 10 n).length).foldl
      (fun n c => n * 10 + digitValue c) 0 = n := by
    rw [List.take_left, foldl_digitValue, Nat.ofDigitChars_ten_toDigits]
  have hsome : (Nat.toDigits 10 n).length ≠ 0 := Nat.length_toDigits_pos.ne'
  have hsmall : ¬maxExponent < n := by omega
  have htotal : max (-(maxExponent : Int) - 1) (min maxExponent (if below then exponent - n else exponent + n)) =
      if below then exponent - n else exponent + n := by
    split_ifs
    all_goals omega
  cases below with
  | _ =>
    simp only [Bool.false_eq_true, if_false, if_true]
    rw [readExponent?]
    dsimp only
    rw [hcount]
    dsimp only
    rw [hwritten, if_neg hsome, if_neg hsmall, htotal]
    rfl

/-- An exponent of four digits at most. -/
theorem readFraction?_exponentChars (hrest : Ends rest) {p : Int} (hp : p.natAbs < 10 ^ 4) {exponent : Int}
    (hexponent : exponent.natAbs < 10 ^ 4) (negative : Bool) (significand : Nat) :
    readFraction? negative significand exponent (DecimalText.exponentChars p ++ rest) =
      (decimal? negative significand (exponent + p)).map fun f => (.float f, rest) := by
  have hread := readExponent?_digits hrest hp hexponent (decide (p < 0)) negative significand
  simp only [decide_eq_true_eq] at hread
  have htotal : (if p < 0 then exponent - p.natAbs else exponent + p.natAbs) = exponent + p := by
    split_ifs
    all_goals omega
  rw [htotal] at hread
  exact hread

variable {t : DecimalText}

/-- What is behind the digits changes the scale. -/
theorem readFraction?_exponentPart (h : t.Proper) (hrest : Ends rest) {exponent : Int}
    (hexponent : exponent.natAbs < 10 ^ 4) (negative : Bool) (significand : Nat) :
    readFraction? negative significand exponent (t.exponentPart ++ rest) =
      (decimal? negative significand (exponent + t.exponent.getD 0)).map fun f => (.float f, rest) := by
  unfold DecimalText.exponentPart
  cases hp : t.exponent with
  | none =>
    rw [Option.map_none, Option.getD_none, List.nil_append, Option.getD_none, add_zero]
    exact readFraction?_of_ends hrest negative significand exponent
  | some p => exact readFraction?_exponentChars hrest (h.small p hp) hexponent negative significand

/-- A text with a point or an exponent is read as its significand, scaled. -/
theorem readUnsigned?_decimalText (h : t.Proper) (hrest : Ends rest) (negative : Bool) :
    readUnsigned? negative (t.chars ++ rest) =
      (decimal? negative t.significand t.scale).map fun f => (.float f, rest) := by
  have hwhole : Nat.ofDigitChars 10 t.whole 0 < Nat.pow 2 64 := by
    refine Nat.lt_of_le_of_lt ?_ h.fits
    rw [DecimalText.significand, Nat.ofDigitChars_append]
    exact le_ofDigitChars t.fraction _
  by_cases hfraction : t.fraction = []
  · have hstart : startsFraction (t.exponentPart ++ rest) = true := by
      obtain ⟨p, hp⟩ := Option.isSome_iff_exists.1 (h.double hfraction)
      rw [DecimalText.exponentPart, hp]
      rfl
    have htext : t.chars ++ rest = t.whole ++ (t.exponentPart ++ rest) := by simp [DecimalText.chars, hfraction]
    have hsignificand : Nat.ofDigitChars 10 t.whole 0 = t.significand := by
      rw [DecimalText.significand, hfraction, List.append_nil]
    have hscale : (0 : Nat) + t.exponent.getD 0 = t.scale := by
      rw [DecimalText.scale, hfraction, List.length_nil]
      omega
    rw [htext, h.whole.readUnsigned?_of_startsFraction hwhole hstart, hsignificand,
      readFraction?_exponentPart h hrest (by decide), hscale]
  · obtain ⟨hstops, hpoint⟩ : Stops (t.exponentPart ++ rest) ∧ '.' ∉ (t.exponentPart ++ rest).head? := by
      unfold DecimalText.exponentPart
      cases t.exponent with
      | none => exact ⟨hrest.stops, hrest.not_point⟩
      | some p => exact ⟨by rintro _ ⟨⟩; rfl, by rintro ⟨⟩⟩
    have htext : t.chars ++ rest = t.whole ++ '.' :: (t.fraction ++ (t.exponentPart ++ rest)) := by
      simp [DecimalText.chars, hfraction]
    have hsignificand : Nat.ofDigitChars 10 t.fraction (Nat.ofDigitChars 10 t.whole 0) = t.significand :=
      (Nat.ofDigitChars_append 0).symm
    have hscale : (0 : Nat) - (t.fraction.length : Int) + t.exponent.getD 0 = t.scale := by
      rw [DecimalText.scale]
      omega
    have hshort := h.short
    rw [htext, h.whole.readUnsigned?_of_startsFraction hwhole rfl,
      readFraction?_point h.fraction hfraction (hsignificand ▸ h.fits) hstops hpoint, hsignificand,
      readFraction?_exponentPart h hrest (by omega), hscale]

end DecimalText

end Json

end ProxyFleet
