import Mathlib.Tactic.SplitIfs
import ProxyFleet.Time.Day

/-!
# Days are read as they were written

* `Day.Valid` : a day that the calendar has;
* `Day.read_text` : its text is read as that day, so that no two days have one text (`Day.text_inj`).
-/

namespace ProxyFleet

set_option autoImplicit false

namespace Day

/-- A day that the calendar has, in a year that days may have. -/
structure Valid (d : Day) : Prop where
  first_year : years.1 ≤ d.year
  last_year : d.year ≤ years.2
  month_pos : 1 ≤ d.month
  month_le : d.month ≤ 12
  day_pos : 1 ≤ d.day
  day_le : d.day ≤ monthLength d.year d.month

theorem monthLength_le (year : Int) (month : Nat) : monthLength year month ≤ 31 := by
  unfold monthLength
  split_ifs <;> omega

/-! ## Padded numbers -/

/-- The characters of a padded number. -/
theorem toList_padded (k n : Nat) : (padded k n).toList =
    List.replicate (k - (Nat.toDigits 10 n).length) '0' ++ Nat.toDigits 10 n := by
  simp [padded, Nat.repr_eq_ofList_toDigits]

theorem isDigit_of_mem_padded {k n : Nat} {c : Char} (h : c ∈ (padded k n).toList) : c.isDigit = true := by
  rw [toList_padded, List.mem_append] at h
  rcases h with h | h
  · rw [List.eq_of_mem_replicate h]
    rfl
  · exact Nat.isDigit_of_mem_toDigits (by decide) (by decide) h

theorem ofDigitChars_padded (k n : Nat) : Nat.ofDigitChars 10 (padded k n).toList 0 = n := by
  rw [toList_padded, Nat.ofDigitChars_append, Nat.ofDigitChars_replicate_zero, Nat.mul_zero,
    Nat.ofDigitChars_ten_toDigits]

theorem padded_ne_nil (k n : Nat) : (padded k n).toList ≠ [] := by
  rw [toList_padded]
  simp [Nat.toDigits_ne_nil]

theorem length_padded {k n : Nat} (hk : 0 < k) (hn : n < Nat.pow 10 k) : (padded k n).toList.length = k := by
  have hle := (Nat.length_toDigits_le_iff (b := 10) (by decide) hk).2 hn
  rw [toList_padded, List.length_append, List.length_replicate]
  omega

theorem isBlank_of_isDigit {c : Char} (h : c.isDigit = true) : Text.isBlank c = false := by
  have hlow : 48 ≤ c.toNat ∧ c.toNat ≤ 57 := by
    simpa [Char.isDigit, UInt32.le_iff_toNat_le] using h
  simp only [Text.isBlank, Text.blankRanges, List.any_cons, List.any_nil, Bool.or_false, Bool.or_eq_false_iff,
    Bool.and_eq_false_iff, decide_eq_false_iff_not]
  omega

/-! ## Reading digits -/

/-- Digits are read up to what is none. -/
theorem readDigits_append {most : Nat} {cs rest : List Char} (hdigits : ∀ c ∈ cs, c.isDigit = true)
    (hne : cs ≠ []) (hlen : cs.length ≤ most) (hrest : ∀ c ∈ rest.head?, c.isDigit = false)
    (hbound : Nat.ofDigitChars 10 cs 0 < Nat.pow 2 63) :
    readDigits most (cs ++ rest) = .ok (Nat.ofDigitChars 10 cs 0, rest) := by
  have htaken : ((cs ++ rest).take most).takeWhile Char.isDigit = cs := by
    rw [List.take_append, List.take_of_length_le hlen, List.takeWhile_append_of_pos hdigits]
    cases rest with
    | nil => simp
    | cons c rest =>
      have hc : c.isDigit = false := hrest c rfl
      cases most - cs.length with
      | zero => simp
      | succ n => simp [hc]
  have hvalue : cs.foldl (fun n c => n * 10 + (c.toNat - '0'.toNat)) 0 = Nat.ofDigitChars 10 cs 0 := by
    simp only [Nat.ofDigitChars_eq_foldl, Nat.mul_comm]
  have hcons : cs ++ rest ≠ [] := by simp [hne]
  unfold readDigits
  dsimp only
  rw [htaken, hvalue]
  cases hcs : cs ++ rest with
  | nil => exact absurd hcs hcons
  | cons c l =>
    rw [← hcs]
    simp only [List.isEmpty_iff, hne, hbound, if_true, if_false, List.drop_left]

/-- A padded number is read up to what is no digit. -/
theorem readDigits_padded {most k n : Nat} {rest : List Char} (hlen : (padded k n).toList.length ≤ most)
    (hrest : ∀ c ∈ rest.head?, c.isDigit = false) (hn : n < Nat.pow 2 63) :
    readDigits most ((padded k n).toList ++ rest) = .ok (n, rest) := by
  have hread := readDigits_append (fun c => isDigit_of_mem_padded) (padded_ne_nil k n) hlen hrest
    (by rwa [ofDigitChars_padded])
  rwa [ofDigitChars_padded] at hread

/-- Blanks before a padded number: there are none. -/
theorem dropWhile_padded (k n : Nat) (rest : List Char) :
    ((padded k n).toList ++ rest).dropWhile Text.isBlank = (padded k n).toList ++ rest := by
  cases hcs : (padded k n).toList with
  | nil => exact absurd hcs (padded_ne_nil k n)
  | cons c cs =>
    have hc : c ∈ (padded k n).toList := by simp [hcs]
    simp [isBlank_of_isDigit (isDigit_of_mem_padded hc)]

theorem readSmall_padded {most n : Nat} {rest : List Char} (hpos : 1 ≤ n) (hle : n ≤ most) (hmost : most < 100)
    (hrest : ∀ c ∈ rest.head?, c.isDigit = false) :
    readSmall most ((padded 2 n).toList ++ rest) = .ok (n, rest) := by
  have hshort : n < 100 := by omega
  have hlen : (padded 2 n).toList.length ≤ 2 := Nat.le_of_eq (length_padded (by decide) hshort)
  have hn : n < Nat.pow 2 63 := Nat.lt_of_lt_of_le hshort (by decide)
  rw [readSmall, dropWhile_padded, readDigits_padded hlen hrest hn]
  simp only [bind, Except.bind, hpos, hle, and_self, if_true]
  rfl

/-- A hyphen ends what stands before it. -/
theorem head?_hyphen {rest : List Char} : ∀ c ∈ ('-' :: rest).head?, c.isDigit = false := by
  simp

/-- What comes after a step that succeeded. The range of years is checked by integers too large to be
compared step by step, so that the step is taken by rewriting. -/
theorem ok_bind {α β ε : Type} (a : α) (f : α → Except ε β) : (Except.ok a >>= f) = f a := rfl

/-- What the digits of a year begin with is no sign. -/
theorem isDigit_of_padded_eq_cons {k n : Nat} {rest l : List Char} {c : Char}
    (h : (padded k n).toList ++ rest = c :: l) : c.isDigit = true := by
  cases hcs : (padded k n).toList with
  | nil => exact absurd hcs (padded_ne_nil k n)
  | cons d cs =>
    rw [hcs] at h
    have hd : d ∈ (padded k n).toList := by simp [hcs]
    exact (List.cons.inj h).1 ▸ isDigit_of_mem_padded hd

/-- A year that days may have is read as it was written. -/
theorem readYear_yearText {year : Int} {rest : List Char} (hfirst : years.1 ≤ year) (hlast : year ≤ years.2) :
    readYear ((yearText year).toList ++ '-' :: rest) = .ok (year, '-' :: rest) := by
  simp only [years] at hfirst hlast
  have hpow : Nat.pow 2 63 = 9223372036854775808 ∧ Nat.pow 2 31 = 2147483648 := ⟨rfl, rfl⟩
  have hn : year.natAbs < Nat.pow 2 63 := by
    rw [hpow.1]
    omega
  have hrange : -((Nat.pow 2 31 : Nat) : Int) ≤ year ∧ year < ((Nat.pow 2 31 : Nat) : Int) := by
    rw [hpow.2]
    omega
  unfold readYear
  extract_lets inRange
  have hinRange : inRange year ('-' :: rest) = .ok (year, '-' :: rest) := if_pos hrange
  have hblank : Text.isBlank '-' = false ∧ Text.isBlank '+' = false := by decide
  unfold yearText
  split_ifs with hfour hneg
  · have hshort : year.natAbs < 10000 := by omega
    have hlen : (padded 4 year.natAbs).toList.length ≤ 4 := Nat.le_of_eq (length_padded (by decide) hshort)
    have habs : (year.natAbs : Int) = year := by omega
    rw [dropWhile_padded]
    split
    · exact absurd (isDigit_of_padded_eq_cons ‹_›) (by decide)
    · exact absurd (isDigit_of_padded_eq_cons ‹_›) (by decide)
    · rw [readDigits_padded hlen head?_hyphen hn, ok_bind]
      dsimp only
      rw [habs, hinRange]
  · have hsign : ("-" ++ padded 4 year.natAbs).toList ++ '-' :: rest =
        '-' :: ((padded 4 year.natAbs).toList ++ '-' :: rest) := by simp
    have habs : -(year.natAbs : Int) = year := by omega
    rw [hsign, List.dropWhile_cons_of_neg (by simp [hblank])]
    show (readDigits _ _ >>= fun r => inRange (-r.1) r.2) = _
    rw [readDigits_padded (by simp) head?_hyphen hn, ok_bind]
    dsimp only
    rw [habs, hinRange]
  · have hsign : ("+" ++ padded 4 year.natAbs).toList ++ '-' :: rest =
        '+' :: ((padded 4 year.natAbs).toList ++ '-' :: rest) := by simp
    have habs : (year.natAbs : Int) = year := by omega
    rw [hsign, List.dropWhile_cons_of_neg (by simp [hblank])]
    show (readDigits _ _ >>= fun r => inRange r.1 r.2) = _
    rw [readDigits_padded (by simp) head?_hyphen hn, ok_bind]
    dsimp only
    rw [habs, hinRange]

/-- A day is read as it was written. -/
theorem read_text {d : Day} (h : d.Valid) : read d.text = .ok d := by
  have hchars : d.text.toList = (yearText d.year).toList ++
      '-' :: ((padded 2 d.month).toList ++ '-' :: ((padded 2 d.day).toList ++ [])) := by
    simp [text]
  have hday : d.day ≤ 31 := Nat.le_trans h.day_le (monthLength_le _ _)
  have hreadDay : readSmall 31 ((padded 2 d.day).toList ++ []) = .ok (d.day, []) :=
    readSmall_padded h.day_pos hday (by decide) (by simp)
  rw [read, hchars, readYear_yearText h.first_year h.last_year]
  simp only [bind, Except.bind, readHyphen, readSmall_padded h.month_pos h.month_le (by decide) head?_hyphen,
    hreadDay]
  rw [if_neg (by simp), if_neg]
  · rfl
  · rintro (hlow | hhigh | hlong)
    · exact absurd h.first_year (Int.not_le.2 hlow)
    · exact absurd h.last_year (Int.not_le.2 hhigh)
    · exact absurd h.day_le (Nat.not_le.2 hlong)

/-- No two days have one text. -/
theorem text_inj {d e : Day} (hd : d.Valid) (he : e.Valid) : d.text = e.text ↔ d = e := by
  refine ⟨fun h => ?_, congrArg text⟩
  have hread := read_text hd
  rw [h, read_text he] at hread
  exact (Except.ok.inj hread).symm

end Day

end ProxyFleet
