import Mathlib.Data.List.Basic

/-!
# Joined texts that differ

Whether two lists of parts, joined by a separator, make one text cannot be told from the parts alone: a
part may have the separator in it. Two reasons why the texts differ are enough here.

* `Text.intercalate_ne_of_apart` : after parts that they share, two parts differ, and neither goes on as
  the other;
* `Text.intercalate_ne_of_width` : the texts have different lengths.
-/

namespace ProxyFleet.Text

set_option autoImplicit false

/-- Neither text goes on as the other. -/
def Apart (a b : String) : Prop := ¬a.toList <+: b.toList ∧ ¬b.toList <+: a.toList

instance (a b : String) : Decidable (Apart a b) := inferInstanceAs (Decidable (_ ∧ _))

theorem Apart.append_ne {a b : String} (h : Apart a b) (r r' : String) : a ++ r ≠ b ++ r' := by
  intro heq
  have hlist : a.toList ++ r.toList = b.toList ++ r'.toList := by
    rw [← String.toList_append, heq, String.toList_append]
  rcases List.prefix_or_prefix_of_prefix (List.prefix_append a.toList r.toList)
    (hlist ▸ List.prefix_append b.toList r'.toList) with hprefix | hprefix
  · exact h.1 hprefix
  · exact h.2 hprefix

variable {sep : String}

theorem exists_intercalate_cons (sep s : String) (rest : List String) :
    ∃ r, sep.intercalate (s :: rest) = s ++ r := by
  cases rest with
  | nil => exact ⟨"", by simp⟩
  | cons t rest => exact ⟨sep ++ sep.intercalate (t :: rest), by simp [String.append_assoc]⟩

theorem intercalate_append_cons (sep a b : String) (rest : List String) :
    sep.intercalate ((a ++ b) :: rest) = a ++ sep.intercalate (b :: rest) := by
  cases rest with
  | nil => simp
  | cons c rest => simp only [String.intercalate_cons_cons, String.append_assoc]

/-- Joined texts differ if, after parts that they share, two parts are apart. -/
theorem intercalate_ne_of_apart {a b : String} (h : Apart a b) (front rest rest' : List String) :
    sep.intercalate (front ++ a :: rest) ≠ sep.intercalate (front ++ b :: rest') := by
  obtain ⟨r, hr⟩ := exists_intercalate_cons sep a rest
  obtain ⟨r', hr'⟩ := exists_intercalate_cons sep b rest'
  cases front with
  | nil =>
    rw [List.nil_append, List.nil_append, hr, hr']
    exact h.append_ne r r'
  | cons s front =>
    have hne : s :: front ≠ [] := List.cons_ne_nil s front
    rw [String.intercalate_append_of_ne_nil hne (List.cons_ne_nil a rest),
      String.intercalate_append_of_ne_nil hne (List.cons_ne_nil b rest'), hr, hr']
    intro heq
    exact h.append_ne r r' ((String.append_right_inj _).1 heq)

/-- The lengths of parts that are joined, each with the separator behind it. -/
def width (sep : String) : List String → Nat
  | [] => 0
  | s :: parts => s.length + sep.length + width sep parts

@[simp] theorem width_nil : width sep [] = 0 := rfl

@[simp] theorem width_cons (s : String) (parts : List String) :
    width sep (s :: parts) = s.length + sep.length + width sep parts := rfl

@[simp] theorem width_append (parts parts' : List String) :
    width sep (parts ++ parts') = width sep parts + width sep parts' := by
  induction parts with
  | nil => simp
  | cons s parts ih =>
    rw [List.cons_append, width_cons, width_cons, ih]
    omega

theorem length_intercalate {parts : List String} (h : parts ≠ []) :
    (sep.intercalate parts).length + sep.length = width sep parts := by
  induction parts with
  | nil => exact absurd rfl h
  | cons s parts ih =>
    cases parts with
    | nil => simp
    | cons t parts =>
      have hrest := ih (List.cons_ne_nil t parts)
      rw [String.intercalate_cons_cons, width_cons, ← hrest, String.length_append, String.length_append]
      omega

theorem intercalate_ne_of_width {parts parts' : List String} (h : parts ≠ []) (h' : parts' ≠ [])
    (hwidth : width sep parts ≠ width sep parts') : sep.intercalate parts ≠ sep.intercalate parts' := by
  intro heq
  rw [← length_intercalate h, ← length_intercalate h', heq] at hwidth
  exact hwidth rfl

end ProxyFleet.Text
