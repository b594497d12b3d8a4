import ProxyFleet.Net.RequestTarget
import ProxyFleet.Proofs.Text.Percent

/-!
# Segments of points

A segment of one or two points is resolved, however its points are written. A percent encoding keeps points as
they are and writes nothing else as a point, so that the encodings which are resolved are those of one and of two
points.

* `Net.IsPoint` : how a point may be written, and that it is read as one;
* `Net.isSingleDot_percentEncode_iff`, `Net.isDoubleDot_percentEncode_iff` : the encodings that are resolved.
-/

namespace ProxyFleet.Net

set_option autoImplicit false

/-! ## Points -/

/-- A point, as it may be written in a segment. -/
def IsPoint (cs : List Char) : Prop := cs = ['.'] ∨ cs = ['%', '2', 'e'] ∨ cs = ['%', '2', 'E']

theorem isPoint_of_lower {cs : List Char} (hascii : ∀ c ∈ cs, c.toNat < 128)
    (h : cs.map Char.toLower = ['.'] ∨ cs.map Char.toLower = ['%', '2', 'e']) : IsPoint cs := by
  have hlower : ∀ n < 128, ((Char.ofNat n).toLower = '.' → Char.ofNat n = '.') ∧
      ((Char.ofNat n).toLower = '%' → Char.ofNat n = '%') ∧ ((Char.ofNat n).toLower = '2' → Char.ofNat n = '2') ∧
      ((Char.ofNat n).toLower = 'e' → Char.ofNat n = 'e' ∨ Char.ofNat n = 'E') := by decide
  have hchar : ∀ c ∈ cs, (c.toLower = '.' → c = '.') ∧ (c.toLower = '%' → c = '%') ∧ (c.toLower = '2' → c = '2') ∧
      (c.toLower = 'e' → c = 'e' ∨ c = 'E') := by
    intro c hc
    obtain ⟨n, hn, rfl⟩ := Text.exists_code (hascii c hc)
    exact hlower n hn
  rcases h with h | h
  · obtain ⟨c, rfl, hc⟩ := List.map_eq_singleton_iff.1 h
    rw [(hchar c (by simp)).1 hc]
    exact .inl rfl
  · obtain ⟨c, _, rfl, hc, h⟩ := List.map_eq_cons_iff.1 h
    obtain ⟨d, _, rfl, hd, h⟩ := List.map_eq_cons_iff.1 h
    obtain ⟨e, rfl, he⟩ := List.map_eq_singleton_iff.1 h
    obtain rfl := (hchar c (by simp)).2.1 hc
    obtain rfl := (hchar d (by simp)).2.2.1 hd
    rcases (hchar e (by simp)).2.2.2 he with rfl | rfl
    · exact .inr (.inl rfl)
    · exact .inr (.inr rfl)

theorem lower_eq_iff {cs : List Char} {s : String} :
    Text.lower (String.ofList cs) = s ↔ cs.map Char.toLower = s.toList := by
  rw [Text.lower, String.toList_ofList, ← String.toList_inj, String.toList_ofList]

theorem isPoint_of_isSingleDot {cs : List Char} (hascii : ∀ c ∈ cs, c.toNat < 128) (h : isSingleDot cs = true) :
    IsPoint cs := by
  rw [isSingleDot, List.contains_iff_mem, List.mem_cons, List.mem_singleton, lower_eq_iff, lower_eq_iff] at h
  exact isPoint_of_lower hascii h

theorem exists_points_of_isDoubleDot {cs : List Char} (hascii : ∀ c ∈ cs, c.toNat < 128) (h : isDoubleDot cs = true) :
    ∃ first second, cs = first ++ second ∧ IsPoint first ∧ IsPoint second := by
  have hsplit : ∃ x y, cs.map Char.toLower = x ++ y ∧ (x = ['.'] ∨ x = ['%', '2', 'e']) ∧
      (y = ['.'] ∨ y = ['%', '2', 'e']) := by
    simp only [isDoubleDot, List.contains_iff_mem, List.mem_cons, List.not_mem_nil, or_false, lower_eq_iff] at h
    rcases h with h | h | h | h
    · exact ⟨_, _, h.trans rfl, .inl rfl, .inl rfl⟩
    · exact ⟨['.'], _, h, .inl rfl, .inr rfl⟩
    · exact ⟨['%', '2', 'e'], _, h, .inr rfl, .inl rfl⟩
    · exact ⟨['%', '2', 'e'], _, h, .inr rfl, .inr rfl⟩
  obtain ⟨x, y, heq, hx, hy⟩ := hsplit
  obtain ⟨first, second, rfl, rfl, rfl⟩ := List.map_eq_append_iff.1 heq
  obtain ⟨hfirst, hsecond⟩ := List.forall_mem_append.1 hascii
  exact ⟨first, second, rfl, isPoint_of_lower hfirst hx, isPoint_of_lower hsecond hy⟩

/-- A point is read as one. -/
theorem IsPoint.percentDecodeBytes_append {cs : List Char} (h : IsPoint cs) (rest : List UInt8) :
    Text.percentDecodeBytes (cs.map Text.asciiByte ++ rest) = 46 :: Text.percentDecodeBytes rest := by
  rcases h with rfl | rfl | rfl
  · exact Text.percentDecodeBytes_cons (by decide) rest
  · rfl
  · rfl

/-! ## Encodings -/

variable {s : String}

theorem toNat_lt_of_mem_percentEncode : ∀ c ∈ (Text.percentEncode s).toList, c.toNat < 128 := fun _ hc =>
  Text.lt_of_isEncoded (Text.isEncoded_of_mem_percentEncode hc)

/-- A text is known from the bytes that its encoding is read as. -/
theorem eq_of_percentDecodeBytes {t : String}
    (h : Text.percentDecodeBytes ((Text.percentEncode s).toList.map Text.asciiByte) = Text.utf8 t) : s = t := by
  have hdecode := Text.percentDecode?_percentEncode s
  have hbytes := Text.utf8_ofList (toNat_lt_of_mem_percentEncode (s := s))
  rw [String.ofList_toList] at hbytes
  rw [Text.percentDecode?, hbytes, h, Text.fromUTF8?_utf8] at hdecode
  exact (Option.some.inj hdecode).symm

theorem isSingleDot_percentEncode_iff : isSingleDot (Text.percentEncode s).toList = true ↔ s = "." := by
  constructor
  · intro h
    have hpoint := isPoint_of_isSingleDot toNat_lt_of_mem_percentEncode h
    refine eq_of_percentDecodeBytes ?_
    rw [← List.append_nil (List.map _ _), hpoint.percentDecodeBytes_append]
    rfl
  · rintro rfl
    decide

theorem isDoubleDot_percentEncode_iff : isDoubleDot (Text.percentEncode s).toList = true ↔ s = ".." := by
  constructor
  · intro h
    obtain ⟨first, second, heq, hfirst, hsecond⟩ :=
      exists_points_of_isDoubleDot toNat_lt_of_mem_percentEncode h
    refine eq_of_percentDecodeBytes ?_
    rw [heq, List.map_append, hfirst.percentDecodeBytes_append, ← List.append_nil (List.map _ second),
      hsecond.percentDecodeBytes_append]
    rfl
  · rintro rfl
    decide

end ProxyFleet.Net
