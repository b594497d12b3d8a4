import Mathlib.Tactic.SplitIfs
import ProxyFleet.Text.Base64

/-!
# Base64 is read as it was written

A dialect is sound if its characters stand for different numbers and none of them is the padding. What
such a dialect writes it reads, and it reads nothing but its own characters and the padding.

* `Base64.Lawful` : a sound dialect; both dialects are;
* `Base64.decode?_encode` : what was written is read;
* `Base64.known_of_decode?_eq_some` : what is read is in the alphabet.
-/

namespace ProxyFleet.Base64

set_option autoImplicit false

/-- Each number below 64 has its own character, and none of these is the padding. -/
structure Lawful (a : Base64) : Prop where
  valueOf?_charOf : ∀ n < 64, a.valueOf? (a.charOf n) = some n
  valueOf?_padding : a.valueOf? '=' = none

theorem lawful_standard : standard.Lawful := ⟨by decide, by decide⟩

theorem lawful_urlSafe : urlSafe.Lawful := ⟨by decide, by decide⟩

variable {a : Base64}

theorem Lawful.charOf_ne_padding (h : a.Lawful) {n : Nat} (hn : n < 64) : a.charOf n ≠ '=' := by
  intro heq
  have hvalue := h.valueOf?_charOf n hn
  rw [heq, h.valueOf?_padding] at hvalue
  exact absurd hvalue (Option.some_ne_none n).symm

theorem ofNat_eq_of_toNat {n : Nat} {x : UInt8} (h : n = x.toNat) : UInt8.ofNat n = x := by
  rw [h, UInt8.ofNat_toNat]

/-! ## What was written is read -/

section Groups

variable (h : a.Lawful) (x y z : UInt8)

include h

theorem decodeTwo?_encode :
    a.decodeTwo? (a.charOf (x.toNat / 4)) (a.charOf (x.toNat % 4 * 16)) = some [x] := by
  have hx := x.toNat_lt
  have hfirst : UInt8.ofNat (x.toNat / 4 * 4 + x.toNat % 4 * 16 / 16) = x := ofNat_eq_of_toNat (by omega)
  have hrest : x.toNat % 4 * 16 % 16 = 0 := by omega
  rw [decodeTwo?, h.valueOf?_charOf _ (by omega), h.valueOf?_charOf _ (by omega)]
  simp only [hrest, if_true, hfirst]

theorem decodeThree?_encode :
    a.decodeThree? (a.charOf (x.toNat / 4)) (a.charOf (x.toNat % 4 * 16 + y.toNat / 16))
      (a.charOf (y.toNat % 16 * 4)) = some [x, y] := by
  have hx := x.toNat_lt
  have hy := y.toNat_lt
  have hfirst : UInt8.ofNat (x.toNat / 4 * 4 + (x.toNat % 4 * 16 + y.toNat / 16) / 16) = x :=
    ofNat_eq_of_toNat (by omega)
  have hsecond : UInt8.ofNat ((x.toNat % 4 * 16 + y.toNat / 16) % 16 * 16 + y.toNat % 16 * 4 / 4) = y :=
    ofNat_eq_of_toNat (by omega)
  have hrest : y.toNat % 16 * 4 % 4 = 0 := by omega
  rw [decodeThree?, h.valueOf?_charOf _ (by omega), h.valueOf?_charOf _ (by omega),
    h.valueOf?_charOf _ (by omega)]
  simp only [hrest, if_true, hfirst, hsecond]

theorem decodeFour?_encode :
    a.decodeFour? (a.charOf (x.toNat / 4)) (a.charOf (x.toNat % 4 * 16 + y.toNat / 16))
      (a.charOf (y.toNat % 16 * 4 + z.toNat / 64)) (a.charOf (z.toNat % 64)) = some [x, y, z] := by
  have hx := x.toNat_lt
  have hy := y.toNat_lt
  have hz := z.toNat_lt
  have hfirst : UInt8.ofNat (x.toNat / 4 * 4 + (x.toNat % 4 * 16 + y.toNat / 16) / 16) = x :=
    ofNat_eq_of_toNat (by omega)
  have hsecond : UInt8.ofNat ((x.toNat % 4 * 16 + y.toNat / 16) % 16 * 16 +
      (y.toNat % 16 * 4 + z.toNat / 64) / 4) = y := ofNat_eq_of_toNat (by omega)
  have hthird : UInt8.ofNat ((y.toNat % 16 * 4 + z.toNat / 64) % 4 * 64 + z.toNat % 64) = z :=
    ofNat_eq_of_toNat (by omega)
  rw [decodeFour?, h.valueOf?_charOf _ (by omega), h.valueOf?_charOf _ (by omega),
    h.valueOf?_charOf _ (by omega), h.valueOf?_charOf _ (by omega)]
  simp only [hfirst, hsecond, hthird]

end Groups

theorem encode_eq_nil_iff {bytes : List UInt8} : a.encode bytes = [] ↔ bytes = [] := by
  rcases bytes with _ | ⟨x, _ | ⟨y, _ | ⟨z, bytes⟩⟩⟩
  all_goals simp [encode]

/-- What a sound dialect writes it reads. -/
theorem decode?_encode (h : a.Lawful) (bytes : List UInt8) : a.decode? (a.encode bytes) = some bytes := by
  induction bytes using encode.induct with
  | case1 => rfl
  | case2 x =>
    have htwo := decodeTwo?_encode h x
    by_cases hpad : a.padded = true
    · simp [encode, padding, hpad, decode?, decodeLast?, htwo]
    · simp [encode, padding, hpad, decode?, decodeLast?, htwo]
  | case3 x y =>
    have hy := y.toNat_lt
    have hthree := decodeThree?_encode h x y
    have hne := h.charOf_ne_padding (n := y.toNat % 16 * 4) (by omega)
    by_cases hpad : a.padded = true
    · simp [encode, padding, hpad, decode?, decodeLast?, hthree, hne]
    · simp [encode, padding, hpad, decode?, decodeLast?, hthree]
  | case4 x y z bytes ih =>
    have hfour := decodeFour?_encode h x y z
    have hne := h.charOf_ne_padding (n := z.toNat % 64) (by omega)
    rw [encode]
    cases hrest : a.encode bytes with
    | nil =>
      have hnil : bytes = [] := encode_eq_nil_iff.1 hrest
      simp [decode?, decodeLast?, hne, hfour, hnil]
    | cons c rest =>
      rw [hrest] at ih
      simp [decode?, hfour, ih]

theorem decode?_text (h : a.Lawful) (bytes : List UInt8) : a.decode? (a.text bytes).toList = some bytes := by
  rw [text, String.toList_ofList, decode?_encode h]

/-! ## What is read -/

/-- A character of the alphabet, or the padding. -/
def Known (a : Base64) (c : Char) : Prop := (a.valueOf? c).isSome = true ∨ c = '='

theorem known_of_decodeTwo? {p q : Char} {bytes : List UInt8} (h : a.decodeTwo? p q = some bytes) :
    a.Known p ∧ a.Known q := by
  unfold decodeTwo? at h
  split at h
  · next hp hq => exact ⟨.inl (by simp [hp]), .inl (by simp [hq])⟩
  · exact absurd h (by simp)

theorem known_of_decodeThree? {p q r : Char} {bytes : List UInt8} (h : a.decodeThree? p q r = some bytes) :
    a.Known p ∧ a.Known q ∧ a.Known r := by
  unfold decodeThree? at h
  split at h
  · next hp hq hr => exact ⟨.inl (by simp [hp]), .inl (by simp [hq]), .inl (by simp [hr])⟩
  · exact absurd h (by simp)

theorem known_of_decodeFour? {p q r s : Char} {bytes : List UInt8} (h : a.decodeFour? p q r s = some bytes) :
    a.Known p ∧ a.Known q ∧ a.Known r ∧ a.Known s := by
  unfold decodeFour? at h
  split at h
  · next hp hq hr hs =>
    exact ⟨.inl (by simp [hp]), .inl (by simp [hq]), .inl (by simp [hr]), .inl (by simp [hs])⟩
  · exact absurd h (by simp)

theorem known_of_decodeLast? {cs : List Char} {bytes : List UInt8} (h : a.decodeLast? cs = some bytes) :
    ∀ c ∈ cs, a.Known c := by
  unfold decodeLast? at h
  split at h
  · simp
  · split_ifs at h
    simpa using known_of_decodeTwo? h
  · split_ifs at h
    simpa using known_of_decodeThree? h
  · split_ifs at h with hpad hr
    · obtain ⟨-, hs⟩ := hpad
      have hequals : a.Known '=' := .inr rfl
      simpa [hr, hs, hequals] using known_of_decodeTwo? h
    · obtain ⟨-, hs⟩ := hpad
      have hequals : a.Known '=' := .inr rfl
      simpa [hs, hequals] using known_of_decodeThree? h
    · simpa using known_of_decodeFour? h
  · exact absurd h (by simp)

/-- A dialect reads nothing but its own characters and the padding. -/
theorem known_of_decode?_eq_some {cs : List Char} {bytes : List UInt8} (h : a.decode? cs = some bytes) :
    ∀ c ∈ cs, a.Known c := by
  induction cs using decode?.induct a generalizing bytes with
  | case1 p q r s c rest front back hback hfront ih =>
    obtain ⟨hp, hq, hr, hs⟩ := known_of_decodeFour? hfront
    simpa [hp, hq, hr, hs] using ih hback
  | case2 p q r s c rest hnone ih =>
    rw [decode?] at h
    split at h
    · next front back hfront hback => exact (hnone front back hfront hback).elim
    · exact absurd h (by simp)
  | case3 last hlast =>
    rw [decode?] at h
    · exact known_of_decodeLast? h
    · exact hlast

end ProxyFleet.Base64
