import Mathlib.Data.List.DropRight
import Mathlib.Tactic.SplitIfs
import ProxyFleet.Net.RequestTarget
import ProxyFleet.Proofs.Text.Percent
import ProxyFleet.Proofs.Text.Split

/-!
# What is sent for an address that goes on

An address without query and fragment to which segments are added is sent as its own segments with their points
resolved, and after them the added ones. Only segments of points among these make a difference to what is before
them.

* `Net.BaseAddress` : the addresses to which segments can be added;
* `Net.resolveSegments_append` : segments of points are resolved from the front;
* `Net.writeSegments_eq`, `Net.slashed_injective` : plain segments are sent as they are, and can be read back;
* `Net.exists_directory` : the target of an address with segments added.
-/

namespace ProxyFleet.Net

set_option autoImplicit false

/-! ## Segments -/

/-- Where a segment leads from the segments before it. -/
def enter (done : List (List Char)) (segment : List Char) : List (List Char) :=
  if isDoubleDot segment then done.dropLast else if isSingleDot segment then done else done ++ [segment]

theorem resolveSegments_cons {rest : List (List Char)} (h : rest ≠ []) (done : List (List Char))
    (segment : List Char) : resolveSegments done (segment :: rest) = resolveSegments (enter done segment) rest := by
  cases rest with
  | nil => exact absurd rfl h
  | cons next rest =>
    rw [resolveSegments, enter]
    split_ifs
    · rfl
    · rfl
    · rfl
    · exact List.cons_ne_nil _ _

theorem resolveSegments_append {back : List (List Char)} (h : back ≠ []) (done front : List (List Char)) :
    resolveSegments done (front ++ back) = resolveSegments (front.foldl enter done) back := by
  induction front generalizing done with
  | nil => rfl
  | cons segment front ih =>
    rw [List.cons_append, resolveSegments_cons (List.append_ne_nil_of_right_ne_nil front h), ih, List.foldl_cons]

/-- Segments are read one after the other as long as none is of points. -/
theorem resolveSegments_append_of_forall {front : List (List Char)}
    (h : ∀ segment ∈ front, isDoubleDot segment = false ∧ isSingleDot segment = false)
    (done back : List (List Char)) : resolveSegments done (front ++ back) = resolveSegments (done ++ front) back := by
  induction front generalizing done with
  | nil => rw [List.nil_append, List.append_nil]
  | cons segment front ih =>
    obtain ⟨⟨hdouble, hsingle⟩, hfront⟩ := List.forall_mem_cons.1 h
    by_cases hne : front ++ back = []
    · obtain ⟨rfl, rfl⟩ := List.append_eq_nil_iff.1 hne
      simp [resolveSegments, hdouble, hsingle]
    · rw [List.cons_append, resolveSegments_cons hne, ih hfront, enter, hdouble, hsingle,
        List.append_cons done segment front]
      rfl

/-- Segments with a slash before each. -/
def slashed (segments : List (List Char)) : List Char := segments.flatMap ('/' :: ·)

theorem exists_slashed_eq_cons {segments : List (List Char)} (h : segments ≠ []) :
    ∃ rest, slashed segments = '/' :: rest := by
  obtain ⟨first, segments, rfl⟩ := List.exists_cons_of_ne_nil h
  exact ⟨_, rfl⟩

/-- Segments without slashes can be told from what is written of them. -/
theorem slashed_injective {segments segments' : List (List Char)} (h : ∀ segment ∈ segments, '/' ∉ segment)
    (h' : ∀ segment ∈ segments', '/' ∉ segment) (heq : slashed segments = slashed segments') :
    segments = segments' := by
  have hsplit := Text.splitChars_append_flatMap h []
  have hsplit' := Text.splitChars_append_flatMap h' []
  rw [slashed, slashed] at heq
  rw [heq, hsplit'] at hsplit
  exact (List.append_cancel_left hsplit).symm

/-- The segments are made of characters that stand for themselves in an address. -/
def Plain (segments : List (List Char)) : Prop := ∀ segment ∈ segments, ∀ c ∈ segment, Text.isEncoded c = true

instance (segments : List (List Char)) : Decidable (Plain segments) :=
  decidable_of_iff (segments.all (·.all Text.isEncoded) = true) (by simp [Plain])

/-- A printed character that has no meaning of its own in an address. -/
structure PlainChar (c : Char) : Prop where
  low : 32 < c.toNat
  high : c.toNat ≤ 126
  slash : isSlash c = false
  question : c ≠ '?'
  hash : c ≠ '#'
  special : ['"', '#', '<', '>', '?', '\x60', '\x7b', '\x7d'].contains c = false

theorem plainChar_of_isEncoded {c : Char} (h : Text.isEncoded c = true) : PlainChar c := by
  have hall : ∀ n < 128, Text.isEncoded (Char.ofNat n) = true → 32 < (Char.ofNat n).toNat ∧
      (Char.ofNat n).toNat ≤ 126 ∧ isSlash (Char.ofNat n) = false ∧ Char.ofNat n ≠ '?' ∧ Char.ofNat n ≠ '#' ∧
      ['"', '#', '<', '>', '?', '\x60', '\x7b', '\x7d'].contains (Char.ofNat n) = false := by decide
  obtain ⟨n, hn, rfl⟩ := Text.exists_code (Text.lt_of_isEncoded h)
  obtain ⟨hlow, hhigh, hslash, hquestion, hhash, hspecial⟩ := hall n hn h
  exact ⟨hlow, hhigh, hslash, hquestion, hhash, hspecial⟩

theorem Plain.slash_notMem {segments : List (List Char)} (h : Plain segments) :
    ∀ segment ∈ segments, '/' ∉ segment := fun segment hsegment hc =>
  absurd (plainChar_of_isEncoded (h segment hsegment _ hc)).slash (by decide)

theorem Plain.ne_of_mem_slashed {segments : List (List Char)} (h : Plain segments) {c : Char}
    (hc : c ∈ slashed segments) : c ≠ '?' ∧ c ≠ '#' := by
  obtain ⟨segment, hsegment, hc⟩ := List.mem_flatMap.1 hc
  rcases List.mem_cons.1 hc with rfl | hc
  · decide
  · have hplain := plainChar_of_isEncoded (h segment hsegment c hc)
    exact ⟨hplain.question, hplain.hash⟩

theorem writeSegments_eq {segments : List (List Char)} (h : Plain segments) :
    writeSegments segments = slashed segments := by
  refine List.flatMap_congr fun segment hsegment => congrArg ('/' :: ·) ?_
  refine (List.flatMap_congr fun c hc => ?_).trans (List.flatMap_singleton' segment)
  have hplain := plainChar_of_isEncoded (h segment hsegment c hc)
  rw [encodeUnless, if_neg]
  simp only [not_or, Nat.not_le, Nat.not_lt, Bool.not_eq_true]
  exact ⟨hplain.low, hplain.high, hplain.special⟩

theorem writeSegments_append (segments segments' : List (List Char)) :
    writeSegments (segments ++ segments') = writeSegments segments ++ writeSegments segments' :=
  List.flatMap_append

/-- A question mark never stands for itself in a path. -/
theorem question_notMem_writeSegments (segments : List (List Char)) : '?' ∉ writeSegments segments := by
  intro h
  obtain ⟨segment, -, hmem⟩ := List.mem_flatMap.1 h
  rcases List.mem_cons.1 hmem with hslash | hmem
  · exact absurd hslash (by decide)
  obtain ⟨c, -, hc⟩ := List.mem_flatMap.1 hmem
  rw [encodeUnless] at hc
  split_ifs at hc with hspecial
  · obtain ⟨b, -, hb⟩ := List.mem_flatMap.1 hc
    have hhex : ∀ n, '?' ≠ Text.upperHexDigit n := fun n heq =>
      absurd (heq ▸ Text.isEncoded_upperHexDigit n) (by decide)
    simp [hhex] at hb
  · rw [List.mem_singleton] at hc
    subst hc
    exact hspecial (by decide)

/-! ## Paths that go on -/

/-- Added segments are read as they were. -/
theorem readSegments_append {back : List (List Char)} (h : Plain back) (path : List Char) :
    readSegments (path ++ slashed back) = readSegments path ++ back := by
  have hmap : ∀ segment ∈ back, segment.map (fun c => if isSlash c then '/' else c) = segment := by
    intro segment hsegment
    refine (List.map_congr_left fun c hc => ?_).trans (List.map_id segment)
    rw [(plainChar_of_isEncoded (h segment hsegment c hc)).slash]
    rfl
  have hback : (slashed back).map (fun c => if isSlash c then '/' else c) = slashed back := by
    rw [slashed, List.map_flatMap]
    refine List.flatMap_congr fun segment hsegment => ?_
    rw [List.map_cons, hmap segment hsegment]
    rfl
  rw [readSegments, readSegments, List.map_append, hback, slashed, Text.splitChars_append_flatMap h.slash_notMem]
  exact List.drop_append_of_le_length (List.length_pos_iff.2 (Text.splitChars_ne_nil _ _))

theorem encodePath_append {back : List (List Char)} (hne : back ≠ []) (h : Plain back) (path : List Char) :
    encodePath (path ++ slashed back) =
      writeSegments (resolveSegments ((readSegments path).foldl enter []) back) := by
  rw [encodePath, readSegments_append h, resolveSegments_append hne]

/-! ## Addresses that go on -/

variable {p : Char → Bool}

theorem dropWhile_append_of_ne_nil {cs : List Char} (h : cs.dropWhile p ≠ []) (more : List Char) :
    (cs ++ more).dropWhile p = cs.dropWhile p ++ more := by
  rw [List.dropWhile_append, if_neg (by simpa using h)]

theorem dropWhile_append_cons {c : Char} (h : p c = false) (cs more : List Char) :
    (cs ++ c :: more).dropWhile p = cs.dropWhile p ++ c :: more := by
  rw [List.dropWhile_append]
  split_ifs with hnil
  · rw [List.isEmpty_iff.1 hnil, List.dropWhile_cons_of_neg (by simp [h]), List.nil_append]
  · rfl

/-- An `http` address without query and fragment. -/
structure BaseAddress (url : String) : Prop where
  http : (requestTarget? url).isSome
  question : '?' ∉ url.toList
  hash : '#' ∉ url.toList

theorem stripped_eq (s : String) :
    stripped s = ((s.toList.dropWhile isControl).rdropWhile isControl).filter (!isBreak ·) := rfl

/-- The characters are printed ones. -/
def Visible (cs : List Char) : Prop := ∀ c ∈ cs, isControl c = false

instance (cs : List Char) : Decidable (Visible cs) := decidable_of_iff (cs.all (!isControl ·) = true) (by simp [Visible])

theorem visible_slashed {segments : List (List Char)} (h : Plain segments) : Visible (slashed segments) := by
  intro c hc
  obtain ⟨segment, hsegment, hc⟩ := List.mem_flatMap.1 hc
  rcases List.mem_cons.1 hc with rfl | hc
  · decide
  · simpa [isControl] using (plainChar_of_isEncoded (h segment hsegment c hc)).low

theorem isBreak_of_isControl {c : Char} (h : isControl c = false) : isBreak c = false := by
  rw [← Bool.not_eq_true, isBreak]
  simp only [Bool.or_eq_true, decide_eq_true_eq]
  rintro ((rfl | rfl) | rfl)
  · exact absurd h (by decide)
  · exact absurd h (by decide)
  · exact absurd h (by decide)

/-- What is added to an address brings back what was stripped from its end, and stays as it is. -/
theorem exists_stripped_append {url : String} (h : stripped url ≠ []) :
    ∃ tail, (∀ c ∈ stripped url ++ tail, c ∈ url.toList) ∧ ∀ more : List Char, more ≠ [] → Visible more →
      stripped (url ++ String.ofList more) = stripped url ++ tail ++ more := by
  obtain ⟨blanks, hfront⟩ := List.rdropWhile_prefix isControl (url.toList.dropWhile isControl)
  refine ⟨blanks.filter (!isBreak ·), fun c hc => ?_, fun more hne hmore => ?_⟩
  · rw [stripped_eq, ← List.filter_append, hfront] at hc
    exact (List.dropWhile_suffix _).subset (List.mem_filter.1 hc).1
  · have hopened : url.toList.dropWhile isControl ≠ [] := fun hnil => h (by rw [stripped_eq, hnil]; rfl)
    have hkept : more.filter (!isBreak ·) = more := List.filter_eq_self.2 fun c hc => by
      rw [isBreak_of_isControl (hmore c hc)]
      rfl
    have hlast : (url.toList.dropWhile isControl ++ more).rdropWhile isControl =
        url.toList.dropWhile isControl ++ more := by
      refine List.rdropWhile_eq_self_iff.2 fun hne' => ?_
      rw [List.getLast_append_of_ne_nil hne' hne, hmore _ (List.getLast_mem hne)]
      exact Bool.false_ne_true
    rw [stripped_eq, String.toList_append, String.toList_ofList, List.dropWhile_append,
      if_neg (by simpa using hopened), hlast, List.filter_append, hkept, stripped_eq, ← List.filter_append, hfront]

theorem length_of_afterScheme? {scheme : String} {cs rest : List Char} (h : afterScheme? scheme cs = some rest) :
    scheme.length ≤ cs.length := by
  unfold afterScheme? at h
  split_ifs at h with hscheme
  have hlength := congrArg (fun s : String => s.toList.length) hscheme
  simp only [Text.lower, String.toList_ofList, List.length_map, List.length_take] at hlength
  rw [String.length_toList] at hlength
  omega

theorem afterScheme?_append {scheme : String} {cs : List Char} (h : scheme.length ≤ cs.length) (more : List Char) :
    afterScheme? scheme (cs ++ more) = (afterScheme? scheme cs).map (· ++ more) := by
  rw [afterScheme?, afterScheme?, List.take_append_of_le_length h, List.drop_append_of_le_length h]
  split_ifs
  · rfl
  · rfl

theorem fromHost?_append {cs rest : List Char} (h : fromHost? cs = some rest) (hne : rest ≠ []) (more : List Char) :
    fromHost? (cs ++ more) = some (rest ++ more) := by
  obtain ⟨after, hafter, rfl⟩ := Option.map_eq_some_iff.1 h
  have hmore : (afterScheme? "http:" (cs ++ more)).or (afterScheme? "https:" (cs ++ more)) = some (after ++ more) := by
    rcases Option.or_eq_some_iff.1 hafter with hhttp | ⟨hnone, hhttps⟩
    · rw [afterScheme?_append (length_of_afterScheme? hhttp), hhttp]
      rfl
    · have hlength : "https:".length ≤ cs.length := length_of_afterScheme? hhttps
      have hshort : "http:".length ≤ cs.length := Nat.le_trans (by decide) hlength
      rw [afterScheme?_append hshort, afterScheme?_append hlength, hnone, hhttps]
      rfl
  rw [fromHost?, hmore, Option.map_some, dropWhile_append_of_ne_nil hne]

theorem suffix_of_fromHost? {cs rest : List Char} (h : fromHost? cs = some rest) : rest <:+ cs := by
  have hscheme : ∀ {scheme : String} {after : List Char}, afterScheme? scheme cs = some after → after <:+ cs := by
    intro scheme after hafter
    unfold afterScheme? at hafter
    split_ifs at hafter
    obtain rfl := Option.some.inj hafter
    exact List.drop_suffix _ _
  obtain ⟨after, hafter, rfl⟩ := Option.map_eq_some_iff.1 h
  refine (List.dropWhile_suffix _).trans ?_
  rcases Option.or_eq_some_iff.1 hafter with hhttp | ⟨-, hhttps⟩
  · exact hscheme hhttp
  · exact hscheme hhttps

theorem targetFromHost?_of_endsHost {c : Char} (h : endsHost c = true) (rest : List Char) :
    targetFromHost? (c :: rest) = none := by
  rw [targetFromHost?, List.takeWhile_cons_of_neg (by simpa using h)]
  rfl

/-- An address has a host. -/
theorem exists_host {url : String} (h : (requestTarget? url).isSome) :
    ∃ c rest, fromHost? (stripped url) = some (c :: rest) ∧ endsHost c = false := by
  rw [requestTarget?, Option.isSome_map, Option.isSome_iff_exists] at h
  obtain ⟨target, htarget⟩ := h
  obtain ⟨rest, hhost, htarget⟩ := Option.bind_eq_some_iff.1 htarget
  cases rest with
  | nil => cases htarget
  | cons c rest =>
    refine ⟨c, rest, hhost, ?_⟩
    by_contra hc
    rw [targetFromHost?_of_endsHost (by simpa using hc)] at htarget
    cases htarget

/-- A query, or nothing. -/
structure IsQuery (query : List Char) : Prop where
  starts : ∀ c ∈ query.head?, c = '?'
  visible : Visible query
  hash : '#' ∉ query

namespace IsQuery

variable {query : List Char}

theorem nil : IsQuery [] where
  starts _ hc := nomatch hc
  visible := by decide
  hash := List.not_mem_nil

theorem takeWhile_eq (h : IsQuery query) : query.takeWhile (· ≠ '?') = [] := by
  cases query with
  | nil => rfl
  | cons c query => rw [h.starts c rfl, List.takeWhile_cons_of_neg (by decide)]

theorem dropWhile_eq (h : IsQuery query) : query.dropWhile (· ≠ '?') = query := by
  cases query with
  | nil => rfl
  | cons c query => rw [h.starts c rfl, List.dropWhile_cons_of_neg (by decide)]

end IsQuery

/-- The target, if the host is followed by characters of no meaning, segments and a query. -/
theorem targetFromHost?_append {c : Char} {rest query : List Char} {back : List (List Char)}
    (hc : endsHost c = false) (hplain : ∀ x ∈ c :: rest, x ≠ '?' ∧ x ≠ '#') (hne : back ≠ []) (hback : Plain back)
    (hquery : IsQuery query) :
    targetFromHost? ((c :: rest) ++ (slashed back ++ query)) =
      some (encodePath ((c :: rest).dropWhile (!endsHost ·) ++ slashed back) ++ encodeQuery query) := by
  have hhost : (((c :: rest) ++ (slashed back ++ query)).takeWhile (!endsHost ·)).isEmpty = false := by
    rw [List.cons_append, List.takeWhile_cons_of_pos (by simp [hc])]
    rfl
  obtain ⟨added, hadded⟩ := exists_slashed_eq_cons hne
  have hdrop : ((c :: rest) ++ (slashed back ++ query)).dropWhile (!endsHost ·) =
      (c :: rest).dropWhile (!endsHost ·) ++ slashed back ++ query := by
    rw [hadded, List.append_assoc]
    exact dropWhile_append_cons (p := (!endsHost ·)) (by decide) (c :: rest) (added ++ query)
  have hpath : ∀ x ∈ (c :: rest).dropWhile (!endsHost ·) ++ slashed back, x ≠ '?' ∧ x ≠ '#' := by
    exact List.forall_mem_append.2
      ⟨fun x hx => hplain x ((List.dropWhile_suffix _).subset hx), fun x hx => hback.ne_of_mem_slashed hx⟩
  have hhash : ∀ x ∈ (c :: rest).dropWhile (!endsHost ·) ++ slashed back ++ query, decide (x ≠ '#') = true :=
    List.forall_mem_append.2 ⟨fun x hx => decide_eq_true (hpath x hx).2,
      fun x hx => decide_eq_true fun heq => hquery.hash (heq ▸ hx)⟩
  have hquestion : ∀ x ∈ (c :: rest).dropWhile (!endsHost ·) ++ slashed back, decide (x ≠ '?') = true :=
    fun x hx => decide_eq_true (hpath x hx).1
  have hpathne : ((c :: rest).dropWhile (!endsHost ·) ++ slashed back).isEmpty = false := by
    simp [hadded]
  rw [targetFromHost?, hdrop, List.takeWhile_eq_self_iff.2 hhash, List.takeWhile_append_of_pos hquestion,
    List.dropWhile_append_of_pos hquestion, hquery.takeWhile_eq, hquery.dropWhile_eq, List.append_nil]
  simp only [hhost, hpathne]
  rfl

/-- **What is sent for an address with segments added** and a query after them: the segments of the address, then
those that are added. The points of the address have been resolved before; those that are added are resolved after
it. -/
theorem exists_directory {url : String} (h : BaseAddress url) : ∃ done : List (List Char),
    ∀ (back : List (List Char)) (query : List Char), back ≠ [] → Plain back → IsQuery query →
      requestTarget? (url ++ String.ofList (slashed back ++ query)) =
        some (String.ofList (writeSegments (resolveSegments done back) ++ encodeQuery query)) := by
  obtain ⟨c, rest, hhost, hc⟩ := exists_host h.http
  have hstripped : stripped url ≠ [] := by
    intro hnil
    rw [hnil] at hhost
    exact absurd hhost (by simp [fromHost?, afterScheme?, Text.lower])
  obtain ⟨tail, hchars, hmore⟩ := exists_stripped_append hstripped
  have hplain : ∀ x ∈ c :: (rest ++ tail), x ≠ '?' ∧ x ≠ '#' := by
    intro x hx
    have hurl : x ∈ url.toList := by
      refine hchars x ?_
      rw [← List.cons_append] at hx
      exact (List.mem_append.1 hx).elim (fun hx => List.mem_append_left _ ((suffix_of_fromHost? hhost).subset hx))
        (List.mem_append_right _)
    exact ⟨fun heq => h.question (heq ▸ hurl), fun heq => h.hash (heq ▸ hurl)⟩
  refine ⟨(readSegments ((c :: (rest ++ tail)).dropWhile (!endsHost ·))).foldl enter [], ?_⟩
  intro back query hne hback hquery
  have hadded : slashed back ++ query ≠ [] := by
    obtain ⟨added, hadded⟩ := exists_slashed_eq_cons hne
    simp [hadded]
  have hvisible : Visible (slashed back ++ query) := List.forall_mem_append.2 ⟨visible_slashed hback, hquery.visible⟩
  rw [requestTarget?, hmore _ hadded hvisible, List.append_assoc, fromHost?_append hhost (List.cons_ne_nil _ _),
    Option.bind_some, List.cons_append, ← List.append_assoc, ← List.cons_append,
    targetFromHost?_append hc hplain hne hback hquery, encodePath_append hne hback, Option.map_some]

end ProxyFleet.Net
