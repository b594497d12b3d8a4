import ProxyFleet.Proofs.Text.Split
import ProxyFleet.Text.Blank

/-!
# Lines, and lists in a line

A text that is written line by line is read as these lines exactly if no line has a line break in it; and
a list that stands in one line, with commas between its items, is read as these items, but for the blanks
before them, if no item has a comma in it.

* `Text.Broken`, `Text.AnyBroken` : a text with a line break in it, and a list with such a text;
* `Text.linesOf` : the lines of a text;
* `Text.linesOf_ended_iff`, `Text.linesOf_joined_iff` : lines are had back;
* `Text.splitChars_listed` : items are had back.
-/

namespace ProxyFleet.Text

set_option autoImplicit false

/-! ## Line breaks -/

/-- A text with a line break in it. -/
def Broken (s : String) : Prop := '\n' ∈ s.toList

instance (s : String) : Decidable (Broken s) := inferInstanceAs (Decidable (_ ∈ _))

@[simp] theorem broken_append (s t : String) : Broken (s ++ t) ↔ Broken s ∨ Broken t := by
  simp [Broken]

@[simp] theorem broken_toString (s : String) : Broken (toString s) ↔ Broken s := Iff.rfl

/-- Some of the texts has a line break in it. -/
def AnyBroken (parts : List String) : Prop := ∃ s ∈ parts, Broken s

@[simp] theorem anyBroken_nil : ¬AnyBroken [] := by simp [AnyBroken]

@[simp] theorem anyBroken_cons (s : String) (parts : List String) :
    AnyBroken (s :: parts) ↔ Broken s ∨ AnyBroken parts := by simp [AnyBroken]

@[simp] theorem anyBroken_append (parts parts' : List String) :
    AnyBroken (parts ++ parts') ↔ AnyBroken parts ∨ AnyBroken parts' := by
  simp [AnyBroken, or_and_right, exists_or]

/-- Joining texts by one without a line break makes no line break. -/
theorem broken_intercalate {sep : String} (hsep : ¬Broken sep) (parts : List String) :
    Broken (sep.intercalate parts) ↔ AnyBroken parts := by
  induction parts with
  | nil => simp [Broken]
  | cons s parts ih =>
    cases parts with
    | nil => simp
    | cons t parts =>
      rw [String.intercalate_cons_cons, broken_append, broken_append, ih, anyBroken_cons s]
      simp [hsep]

/-! ## Lines -/

/-- The lines of a text. A line break ends a line; what follows the last one is a line if it is not empty. -/
def linesOf (s : String) : List String :=
  let pieces := split '\n' s
  if pieces.getLast? = some "" then pieces.dropLast else pieces

theorem not_broken_of_mem_linesOf {line s : String} (h : line ∈ linesOf s) : ¬Broken line := by
  have hmem : line ∈ split '\n' s := by
    unfold linesOf at h
    dsimp only at h
    split_ifs at h
    · exact List.dropLast_subset _ h
    · exact h
  obtain ⟨piece, hpiece, rfl⟩ := List.mem_map.1 hmem
  rw [Broken, String.toList_ofList]
  exact notMem_of_mem_splitChars hpiece

theorem toList_ended (lines : List String) :
    (String.join (lines.map (· ++ "\n"))).toList = ['\n'].intercalate (lines.map String.toList ++ [[]]) := by
  induction lines with
  | nil => rfl
  | cons line lines ih =>
    rw [List.map_cons, String.join_cons, String.toList_append, String.toList_append, ih, List.map_cons,
      List.cons_append, List.intercalate_cons_of_ne_nil (by simp)]
    rfl

/-- Lines that are written one after the other, each ended by a line break, are had back exactly if none
has one in it. -/
theorem linesOf_ended_iff {lines : List String} :
    linesOf (String.join (lines.map (· ++ "\n"))) = lines ↔ ∀ line ∈ lines, ¬Broken line := by
  constructor
  · intro h line hline
    exact not_broken_of_mem_linesOf (h ▸ hline)
  · intro h
    have hpieces : ∀ piece ∈ lines.map String.toList ++ [[]], '\n' ∉ piece := by
      refine List.forall_mem_append.2 ⟨List.forall_mem_map.2 h, ?_⟩
      simp
    have hsplit : split '\n' (String.join (lines.map (· ++ "\n"))) = lines ++ [""] := by
      rw [split, toList_ended, splitChars_intercalate (by simp) hpieces]
      simp
    rw [linesOf, hsplit]
    simp

theorem join_ended {lines : List String} (h : lines ≠ []) :
    "\n".intercalate lines ++ "\n" = String.join (lines.map (· ++ "\n")) := by
  induction lines with
  | nil => exact absurd rfl h
  | cons line lines ih =>
    cases lines with
    | nil => simp
    | cons next lines =>
      rw [String.intercalate_cons_cons, String.append_assoc, ih (List.cons_ne_nil _ _)]
      exact String.join_cons.symm

/-- Lines that are joined by line breaks, with another one behind the last, are had back exactly if there
are any and none has a line break in it: without lines the text is an empty line. -/
theorem linesOf_joined_iff {lines : List String} :
    linesOf ("\n".intercalate lines ++ "\n") = lines ↔ lines ≠ [] ∧ ∀ line ∈ lines, ¬Broken line := by
  by_cases h : lines = []
  · subst h
    decide
  · rw [join_ended h, linesOf_ended_iff, and_iff_right h]

/-! ## Lists in a line -/

theorem trimChars_cons {c : Char} (h : isBlank c = true) (cs : List Char) : trimChars (c :: cs) = trimChars cs := by
  simp [trimChars, h]

theorem trimChars_concat {c : Char} (h : isBlank c = true) (cs : List Char) :
    trimChars (cs ++ [c]) = trimChars cs := by
  unfold trimChars
  rw [List.dropWhile_append]
  split_ifs with hempty
  · simp [h, List.isEmpty_iff.1 hempty]
  · simp [h]

theorem toList_listed {items : List String} (h : items ≠ []) :
    (" " ++ ", ".intercalate items).toList = [','].intercalate (items.map fun s => ' ' :: s.toList) := by
  induction items with
  | nil => exact absurd rfl h
  | cons item items ih =>
    cases items with
    | nil => simp
    | cons next items =>
      have hrest := ih (List.cons_ne_nil next items)
      rw [List.map_cons] at hrest
      rw [String.intercalate_cons_cons, List.map_cons, List.map_cons, List.intercalate_cons_cons, ← hrest]
      simp

/-- A list that is written with commas and blanks between its items is split into them, if none has a comma
in it. -/
theorem splitChars_listed {items : List String} (hne : items ≠ []) (h : ∀ s ∈ items, ',' ∉ s.toList) :
    splitChars ',' (" " ++ ", ".intercalate items).toList = items.map fun s => ' ' :: s.toList := by
  rw [toList_listed hne]
  refine splitChars_intercalate (by simpa using hne) (List.forall_mem_map.2 fun s hs => ?_)
  simpa using h s hs

end ProxyFleet.Text
