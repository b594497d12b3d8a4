import Mathlib.Data.List.Basic
import Mathlib.Tactic.Tauto
import ProxyFleet.Text.Percent

/-!
# Percent encoding is read as it was written

* `Text.fromUTF8?_utf8` : the bytes of a text are read as the text;
* `Text.isEncoded` : the characters that percent encodings are made of, all of them ASCII;
* `Text.percentDecode?_percentEncode` : a percent encoding is read as the text that was encoded;
* `Text.percentEncode_injective` : so different texts have different percent encodings.
-/

namespace ProxyFleet.Text

set_option autoImplicit false

/-! ## Bytes -/

theorem fromUTF8?_utf8 (s : String) : String.fromUTF8? ⟨(utf8 s).toArray⟩ = some s := by
  have hbytes : (⟨(utf8 s).toArray⟩ : ByteArray) = s.toByteArray := by
    rw [utf8, Array.toArray_toList, String.toUTF8_eq_toByteArray]
  rw [hbytes, String.fromUTF8?, dif_pos s.isValidUTF8]
  rfl

/-- The byte of an ASCII character. -/
def asciiByte (c : Char) : UInt8 := c.val.toUInt8

theorem utf8_ofList {cs : List Char} (h : ∀ c ∈ cs, c.toNat < 128) :
    utf8 (String.ofList cs) = cs.map asciiByte := by
  have hone : ∀ c ∈ cs, String.utf8EncodeChar c = [asciiByte c] := fun c hc => by
    refine String.utf8EncodeChar_eq_singleton (Char.utf8Size_eq_one_iff.2 ?_)
    exact UInt32.le_iff_toNat_le.2 (Nat.le_of_lt_succ (h c hc))
  rw [utf8, String.toUTF8_eq_toByteArray, String.toByteArray_ofList, List.utf8Encode,
    List.toList_data_toByteArray, List.flatMap_congr hone, List.map_eq_flatMap]

/-! ## Percent encoding -/

theorem hexByte?_upperHexDigit (n : Nat) : hexByte? (asciiByte (upperHexDigit n)) = some (n % 16) := by
  have hall : ∀ m < 16, hexByte? (asciiByte (Nat.digitChar m).toUpper) = some m := by decide
  exact hall _ (Nat.mod_lt n (by decide))

theorem percentDecodeBytes_cons {b : UInt8} (h : b ≠ 37) (rest : List UInt8) :
    percentDecodeBytes (b :: rest) = b :: percentDecodeBytes rest := by
  have hb : (b == 37) = false := by simpa using h
  match rest with
  | [] | [_] => rfl
  | high :: low :: rest => rw [percentDecodeBytes, hb]

/-- A byte that stands for itself is no percent sign, and it is the byte of the character that is written. -/
theorem asciiByte_of_isUnreserved {b : UInt8} (h : isUnreserved b = true) :
    asciiByte (Char.ofNat b.toNat) = b ∧ b ≠ 37 := by
  have hall : ∀ n < 128, asciiByte (Char.ofNat n) = UInt8.ofNat n := by decide
  have hascii : b.toNat < 128 := by
    simp only [isUnreserved, Bool.and_eq_true, decide_eq_true_eq] at h
    exact h.1
  refine ⟨by rw [hall _ hascii, UInt8.ofNat_toNat], ?_⟩
  rintro rfl
  exact absurd h (by decide)

theorem percentDecodeBytes_percentByte (b : UInt8) (rest : List UInt8) :
    percentDecodeBytes ((percentByte b).map asciiByte ++ rest) = b :: percentDecodeBytes rest := by
  unfold percentByte
  split_ifs with h
  · obtain ⟨hb, hne⟩ := asciiByte_of_isUnreserved h
    rw [List.map_singleton, hb, List.singleton_append, percentDecodeBytes_cons hne]
  · have hb := b.toNat_lt
    have hcode : b.toNat / 16 % 16 * 16 + b.toNat % 16 = b.toNat := by omega
    have hsign : (asciiByte '%' == 37) = true := by decide
    rw [List.map_cons, List.map_cons, List.map_singleton, List.cons_append, List.cons_append,
      List.singleton_append, percentDecodeBytes, hsign, hexByte?_upperHexDigit, hexByte?_upperHexDigit]
    simp only [hcode, UInt8.ofNat_toNat]

theorem percentDecodeBytes_flatMap (bytes : List UInt8) :
    percentDecodeBytes ((bytes.flatMap percentByte).map asciiByte) = bytes := by
  induction bytes with
  | nil => rfl
  | cons b bytes ih => rw [List.flatMap_cons, List.map_append, percentDecodeBytes_percentByte, ih]

/-! ## Characters -/

theorem isAlphanum_iff {c : Char} : c.isAlphanum = true ↔
    (('A' ≤ c ∧ c ≤ 'Z') ∨ ('a' ≤ c ∧ c ≤ 'z')) ∨ ('0' ≤ c ∧ c ≤ '9') := by
  have hc : c.isAlphanum = ((decide ('A' ≤ c ∧ c ≤ 'Z') || (decide ('a' ≤ c) && decide (c ≤ 'z'))) ||
      (decide ('0' ≤ c) && decide (c ≤ '9'))) := rfl
  simp only [hc, Bool.or_eq_true, Bool.and_eq_true, decide_eq_true_eq]

/-- The characters of percent encodings. -/
def isEncoded (c : Char) : Bool := c.isAlphanum || ['-', '_', '.', '~', '%'].contains c

theorem isEncoded_upperHexDigit (n : Nat) : isEncoded (upperHexDigit n) = true := by
  have hall : ∀ m < 16, isEncoded (Nat.digitChar m).toUpper = true := by decide
  exact hall _ (Nat.mod_lt n (by decide))

theorem isEncoded_of_mem_percentByte {b : UInt8} {c : Char} (h : c ∈ percentByte b) : isEncoded c = true := by
  unfold percentByte at h
  split_ifs at h with hb
  · obtain rfl := List.mem_singleton.1 h
    simp only [isUnreserved, Bool.and_eq_true, Bool.or_eq_true, beq_iff_eq] at hb
    simp only [isEncoded, Bool.or_eq_true, List.contains_eq_mem, List.mem_cons, decide_eq_true_eq]
    tauto
  · have hsign : isEncoded '%' = true := by decide
    simp only [List.mem_cons, List.not_mem_nil, or_false] at h
    rcases h with rfl | rfl | rfl
    · exact hsign
    · exact isEncoded_upperHexDigit _
    · exact isEncoded_upperHexDigit _

theorem isEncoded_of_mem_percentEncode {s : String} {c : Char} (h : c ∈ (percentEncode s).toList) :
    isEncoded c = true := by
  rw [percentEncode, String.toList_ofList] at h
  obtain ⟨b, -, hc⟩ := List.mem_flatMap.1 h
  exact isEncoded_of_mem_percentByte hc

theorem lt_of_isEncoded {c : Char} (h : isEncoded c = true) : c.toNat < 128 := by
  rw [isEncoded, Bool.or_eq_true] at h
  rcases h with h | h
  · have hlt : ∀ {d : Char}, d.toNat < 128 → c ≤ d → c.toNat < 128 := fun hd hle =>
      Nat.lt_of_le_of_lt (UInt32.le_iff_toNat_le.1 hle) hd
    rcases isAlphanum_iff.1 h with (h | h) | h
    · exact hlt (by decide) h.2
    · exact hlt (by decide) h.2
    · exact hlt (by decide) h.2
  · have hall : ∀ c ∈ ['-', '_', '.', '~', '%'], c.toNat < 128 := by simp
    exact hall c (List.contains_iff_mem.1 h)

/-- What was encoded is read. -/
theorem percentDecode?_percentEncode (s : String) : percentDecode? (percentEncode s) = some s := by
  have hascii : ∀ c ∈ (utf8 s).flatMap percentByte, c.toNat < 128 := fun c hc =>
    lt_of_isEncoded (isEncoded_of_mem_percentEncode (by rwa [percentEncode, String.toList_ofList]))
  rw [percentDecode?, percentEncode, utf8_ofList hascii, percentDecodeBytes_flatMap, fromUTF8?_utf8]

/-- What is so of every ASCII character can be checked code by code. -/
theorem exists_code {c : Char} (h : c.toNat < 128) : ∃ n < 128, c = Char.ofNat n :=
  ⟨c.toNat, h, (Char.ofNat_toNat c).symm⟩

theorem percentEncode_injective : Function.Injective percentEncode := fun s t h =>
  Option.some.inj ((percentDecode?_percentEncode s).symm.trans
    ((congrArg percentDecode? h).trans (percentDecode?_percentEncode t)))

theorem percentByte_asciiByte {c : Char} (h : isEncoded c = true) (hsign : c ≠ '%') :
    percentByte (asciiByte c) = [c] := by
  have hall : ∀ n < 128, isEncoded (Char.ofNat n) = true → Char.ofNat n ≠ '%' →
      percentByte (asciiByte (Char.ofNat n)) = [Char.ofNat n] := by decide
  obtain ⟨n, hn, rfl⟩ := exists_code (lt_of_isEncoded h)
  exact hall n hn h hsign

/-- A text of letters, digits and the like is its own percent encoding. -/
theorem percentEncode_eq_self {s : String} (h : ∀ c ∈ s.toList, isEncoded c = true ∧ c ≠ '%') :
    percentEncode s = s := by
  have hascii : ∀ c ∈ s.toList, c.toNat < 128 := fun c hc => lt_of_isEncoded (h c hc).1
  have hbytes : utf8 s = s.toList.map asciiByte := by
    rw [← utf8_ofList hascii, String.ofList_toList]
  have hself : ∀ c ∈ s.toList, percentByte (asciiByte c) = [c] := fun c hc =>
    percentByte_asciiByte (h c hc).1 (h c hc).2
  rw [percentEncode, hbytes, List.flatMap_map, List.flatMap_congr hself, List.flatMap_singleton',
    String.ofList_toList]

end ProxyFleet.Text
