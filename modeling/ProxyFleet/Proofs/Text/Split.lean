import Mathlib.Data.List.Basic
import Mathlib.Tactic.SplitIfs
import ProxyFleet.Text.Letters

/-!
# Texts are split where they were joined

* `Text.splitOnce?_of_notMem` : a text is split at the first character of a kind;
* `Text.notMem_of_mem_splitChars` : no piece has the character at which a text is split;
* `Text.splitChars_intercalate` : pieces that were joined by a character, none of which has it, are had back;
* `Text.splitChars_flatten`, `Text.eq_flatten_of_splitChars` : so are pieces that were each ended by it, and nothing
  else is split so;
* `Text.mapM_eq_some` : pieces are read together if each of them is.
-/

namespace ProxyFleet.Text

set_option autoImplicit false

theorem splitOnce?_of_notMem {sep : Char} {before : List Char} (h : sep ∉ before) (after : List Char) :
    splitOnce? sep (before ++ sep :: after) = some (before, after) := by
  induction before with
  | nil => simp [splitOnce?]
  | cons c before ih =>
    obtain ⟨hc, hbefore⟩ := not_or.1 (mt List.mem_cons.2 h)
    simp [splitOnce?, Ne.symm hc, ih hbefore]

theorem splitOnce?_eq_none {sep : Char} {cs : List Char} (h : sep ∉ cs) : splitOnce? sep cs = none := by
  induction cs with
  | nil => rfl
  | cons c cs ih =>
    obtain ⟨hc, hcs⟩ := not_or.1 (mt List.mem_cons.2 h)
    rw [splitOnce?, if_neg (Ne.symm hc), ih hcs, Option.map_none]

theorem splitChars_ne_nil (sep : Char) (cs : List Char) : splitChars sep cs ≠ [] := by
  induction cs with
  | nil => simp [splitChars]
  | cons c cs ih =>
    rw [splitChars]
    split
    · contradiction
    · split_ifs <;> simp

theorem splitChars_of_notMem {sep : Char} {cs : List Char} (h : sep ∉ cs) : splitChars sep cs = [cs] := by
  induction cs with
  | nil => rfl
  | cons c cs ih =>
    obtain ⟨hc, hcs⟩ := not_or.1 (mt List.mem_cons.2 h)
    simp [splitChars, ih hcs, Ne.symm hc]

theorem splitChars_append {sep : Char} {front : List Char} (h : sep ∉ front) (rest : List Char) :
    splitChars sep (front ++ sep :: rest) = front :: splitChars sep rest := by
  induction front with
  | nil =>
    obtain ⟨piece, pieces, hrest⟩ := List.exists_cons_of_ne_nil (splitChars_ne_nil sep rest)
    simp [splitChars, hrest]
  | cons c front ih =>
    obtain ⟨hc, hfront⟩ := not_or.1 (mt List.mem_cons.2 h)
    simp [splitChars, ih hfront, Ne.symm hc]

/-- A text that goes on after a separator has the pieces of both parts. -/
theorem splitChars_append_cons (sep : Char) (front rest : List Char) :
    splitChars sep (front ++ sep :: rest) = splitChars sep front ++ splitChars sep rest := by
  induction front with
  | nil => exact splitChars_append List.not_mem_nil rest
  | cons c front ih =>
    obtain ⟨piece, pieces, hfront⟩ := List.exists_cons_of_ne_nil (splitChars_ne_nil sep front)
    rw [List.cons_append, splitChars, splitChars, ih, hfront]
    split_ifs
    · rfl
    · rfl

/-- Pieces that are written with the separator before each. -/
theorem splitChars_append_flatMap {sep : Char} {pieces : List (List Char)} (h : ∀ piece ∈ pieces, sep ∉ piece)
    (front : List Char) :
    splitChars sep (front ++ pieces.flatMap (sep :: ·)) = splitChars sep front ++ pieces := by
  induction pieces generalizing front with
  | nil => simp
  | cons piece pieces ih =>
    obtain ⟨hpiece, hpieces⟩ := List.forall_mem_cons.1 h
    rw [List.flatMap_cons, ← List.append_assoc, ih hpieces, splitChars_append_cons,
      splitChars_of_notMem hpiece, List.append_assoc, List.singleton_append]

/-- No piece has the separator. -/
theorem notMem_of_mem_splitChars {sep : Char} {cs piece : List Char} (h : piece ∈ splitChars sep cs) :
    sep ∉ piece := by
  induction cs generalizing piece with
  | nil =>
    rw [List.mem_singleton.1 h]
    exact List.not_mem_nil
  | cons c cs ih =>
    obtain ⟨first, pieces, hrest⟩ := List.exists_cons_of_ne_nil (splitChars_ne_nil sep cs)
    rw [hrest] at ih
    simp only [splitChars, hrest] at h
    split_ifs at h with hc
    · rcases List.mem_cons.1 h with rfl | h
      · exact List.not_mem_nil
      · exact ih h
    · rcases List.mem_cons.1 h with rfl | h
      · exact fun hmem => (List.mem_cons.1 hmem).elim (fun heq => hc heq.symm) (ih List.mem_cons_self)
      · exact ih (List.mem_cons_of_mem _ h)

/-- Nothing but the separator is lost. -/
theorem eq_or_mem_splitChars (sep : Char) {c : Char} {cs : List Char} (h : c ∈ cs) :
    c = sep ∨ ∃ piece ∈ splitChars sep cs, c ∈ piece := by
  induction cs with
  | nil => cases h
  | cons d cs ih =>
    obtain ⟨piece, pieces, hrest⟩ := List.exists_cons_of_ne_nil (splitChars_ne_nil sep cs)
    rw [hrest] at ih
    simp only [splitChars, hrest]
    split_ifs with hd
    · rcases List.mem_cons.1 h with rfl | h
      · exact .inl hd
      · exact (ih h).imp_right fun ⟨p, hp, hc⟩ => ⟨p, List.mem_cons_of_mem _ hp, hc⟩
    · rcases List.mem_cons.1 h with rfl | h
      · exact .inr ⟨c :: piece, List.mem_cons_self, List.mem_cons_self⟩
      · refine (ih h).imp_right fun ⟨p, hp, hc⟩ => ?_
        rcases List.mem_cons.1 hp with rfl | hp
        · exact ⟨d :: p, List.mem_cons_self, List.mem_cons_of_mem d hc⟩
        · exact ⟨p, List.mem_cons_of_mem _ hp, hc⟩

/-- Pieces that were joined are had back, if the separator is in none of them. -/
theorem splitChars_intercalate {sep : Char} {pieces : List (List Char)} (hne : pieces ≠ [])
    (h : ∀ piece ∈ pieces, sep ∉ piece) : splitChars sep ([sep].intercalate pieces) = pieces := by
  induction pieces with
  | nil => exact absurd rfl hne
  | cons piece pieces ih =>
    obtain ⟨hpiece, hpieces⟩ := List.forall_mem_cons.1 h
    cases pieces with
    | nil => simpa [List.intercalate] using splitChars_of_notMem hpiece
    | cons next pieces =>
      rw [List.intercalate_cons_cons, List.append_assoc, List.singleton_append, splitChars_append hpiece,
        ih (List.cons_ne_nil _ _) hpieces]

/-- Pieces with the separator after each but the last are had back, if it is in none of them. -/
theorem splitChars_flatten {sep : Char} {pieces : List (List Char)} {last : List Char}
    (h : ∀ piece ∈ pieces, sep ∉ piece) (hlast : sep ∉ last) :
    splitChars sep ((pieces.map (· ++ [sep])).flatten ++ last) = pieces ++ [last] := by
  induction pieces with
  | nil => exact splitChars_of_notMem hlast
  | cons piece pieces ih =>
    obtain ⟨hpiece, hpieces⟩ := List.forall_mem_cons.1 h
    rw [List.map_cons, List.flatten_cons, List.append_assoc, List.append_assoc, List.singleton_append,
      splitChars_append hpiece, ih hpieces, List.cons_append]

/-- A text is its pieces with the separator after each but the last. -/
theorem eq_flatten_of_splitChars {sep : Char} {cs : List Char} {pieces : List (List Char)} {last : List Char}
    (h : splitChars sep cs = pieces ++ [last]) : cs = (pieces.map (· ++ [sep])).flatten ++ last := by
  induction cs generalizing pieces last with
  | nil =>
    cases pieces with
    | nil => simpa [splitChars] using h
    | cons piece pieces => simp [splitChars] at h
  | cons c cs ih =>
    obtain ⟨first, rest, hrest⟩ := List.exists_cons_of_ne_nil (splitChars_ne_nil sep cs)
    simp only [splitChars, hrest] at h
    rw [hrest] at ih
    split_ifs at h with hc
    · cases pieces with
      | nil => simp at h
      | cons piece pieces =>
        obtain ⟨hpiece, htail⟩ := List.cons.inj h
        rw [ih htail, hc, ← hpiece]
        rfl
    · cases pieces with
      | nil =>
        obtain ⟨hlast, htail⟩ := List.cons.inj h
        have hfirst : first :: rest = [] ++ [first] := congrArg (first :: ·) htail
        rw [ih hfirst, ← hlast]
        rfl
      | cons piece pieces =>
        obtain ⟨hpiece, htail⟩ := List.cons.inj h
        have hfirst : first :: rest = (first :: pieces) ++ [last] := congrArg (first :: ·) htail
        rw [ih hfirst, ← hpiece]
        rfl

theorem notMem_intercalate {sep c : Char} {pieces : List (List Char)} (hsep : c ≠ sep)
    (h : ∀ piece ∈ pieces, c ∉ piece) : c ∉ [sep].intercalate pieces := by
  induction pieces with
  | nil => simp [List.intercalate]
  | cons piece pieces ih =>
    obtain ⟨hpiece, hpieces⟩ := List.forall_mem_cons.1 h
    cases pieces with
    | nil => simpa [List.intercalate] using hpiece
    | cons next pieces =>
      rw [List.intercalate_cons_cons, List.mem_append, List.mem_append, not_or, not_or]
      exact ⟨⟨hpiece, by simpa using hsep⟩, ih hpieces⟩

theorem mapM_eq_some {α β : Type} {f : α → Option β} {g : α → β} {l : List α} (h : ∀ a ∈ l, f a = some (g a)) :
    l.mapM f = some (l.map g) := by
  induction l with
  | nil => rfl
  | cons a l ih =>
    obtain ⟨ha, hl⟩ := List.forall_mem_cons.1 h
    rw [List.mapM_cons, ha, ih hl]
    rfl

end ProxyFleet.Text
