import Mathlib.Data.List.Nodup
import Mathlib.Data.String.Basic
import Mathlib.Tactic.SplitIfs

/-!
# Lists in order of their keys

Fields of objects and users of agents are put in order alike: one by one where their key belongs, in
place of an element with that key.

* `Keyed.insert`, `Keyed.sort` : putting elements in order, whatever their values are;
* `Keyed.Ordered` : the keys increase, so that each is there once;
* `Keyed.perm_sort`, `Keyed.ordered_sort`, `Keyed.sort_eq_self` : elements of different keys stay the
  same, in order; those that are in order stay as they are.
-/

namespace ProxyFleet

set_option autoImplicit false

namespace Keyed

variable {β : Type}

/-- The keys increase. -/
def Ordered (l : List (String × β)) : Prop := l.Pairwise (·.1 < ·.1)

/-- Put an element among elements in order, in place of one with that key. -/
def insert (key : String) (value : β) : List (String × β) → List (String × β)
  | [] => [(key, value)]
  | (k, v) :: rest =>
    if key < k then (key, value) :: (k, v) :: rest
    else if k < key then (k, v) :: insert key value rest
    else (key, value) :: rest

/-- Elements in order; of several with one key the last stays. -/
def sort (l : List (String × β)) : List (String × β) := l.foldl (fun sorted e => insert e.1 e.2 sorted) []

variable {key : String} {value : β} {l : List (String × β)}

theorem mem_of_mem_insert {e : String × β} (h : e ∈ insert key value l) : e = (key, value) ∨ e ∈ l := by
  induction l with
  | nil => simpa [insert] using h
  | cons f rest ih =>
    unfold insert at h
    split_ifs at h with hlt hgt
    · simpa using h
    · rcases List.mem_cons.1 h with rfl | h
      · simp
      · rcases ih h with rfl | h
        · simp
        · simp [h]
    · rcases List.mem_cons.1 h with rfl | h
      · simp
      · simp [h]

theorem Ordered.insert (h : Ordered l) (key : String) (value : β) : Ordered (insert key value l) := by
  induction l with
  | nil => simp [Keyed.insert, Ordered]
  | cons f rest ih =>
    obtain ⟨hf, hrest⟩ := List.pairwise_cons.1 h
    unfold Keyed.insert
    split_ifs with hlt hgt
    · refine List.pairwise_cons.2 ⟨fun e he => ?_, h⟩
      rcases List.mem_cons.1 he with rfl | he
      · exact hlt
      · exact lt_trans hlt (hf e he)
    · refine List.pairwise_cons.2 ⟨fun e he => ?_, ih hrest⟩
      rcases mem_of_mem_insert he with rfl | he
      · exact hgt
      · exact hf e he
    · have heq : f.1 = key := le_antisymm (not_lt.1 hlt) (not_lt.1 hgt)
      exact List.pairwise_cons.2 ⟨fun e he => heq ▸ hf e he, hrest⟩

/-- An element with a new key is added and nothing is lost. -/
theorem perm_insert (h : key ∉ l.map (·.1)) : (insert key value l).Perm ((key, value) :: l) := by
  induction l with
  | nil => exact List.Perm.refl _
  | cons f rest ih =>
    obtain ⟨hf, hrest⟩ := not_or.1 (mt List.mem_cons.2 h)
    unfold insert
    split_ifs with hlt hgt
    · exact List.Perm.refl _
    · exact ((ih hrest).cons f).trans (List.Perm.swap _ _ _)
    · exact absurd (le_antisymm (not_lt.1 hgt) (not_lt.1 hlt)) hf

theorem mem_of_mem_sort {e : String × β} (h : e ∈ sort l) : e ∈ l := by
  have hfold : ∀ sorted : List (String × β), e ∈ l.foldl (fun sorted e => insert e.1 e.2 sorted) sorted →
      e ∈ l ∨ e ∈ sorted := by
    clear h
    induction l with
    | nil => exact fun sorted h => .inr h
    | cons f l ih =>
      intro sorted h
      rcases ih _ h with h | h
      · exact .inl (List.mem_cons_of_mem f h)
      · rcases mem_of_mem_insert h with rfl | h
        · exact .inl List.mem_cons_self
        · exact .inr h
  exact (hfold [] h).elim id fun h => absurd h List.not_mem_nil

theorem ordered_sort (l : List (String × β)) : Ordered (sort l) := by
  have hfold : ∀ sorted : List (String × β), Ordered sorted →
      Ordered (l.foldl (fun sorted e => insert e.1 e.2 sorted) sorted) := by
    induction l with
    | nil => exact fun sorted h => h
    | cons e l ih => exact fun sorted h => ih _ (h.insert e.1 e.2)
  exact hfold [] List.Pairwise.nil

/-- Elements of different keys are put in order and none is lost. -/
theorem perm_sort (h : (l.map (·.1)).Nodup) : (sort l).Perm l := by
  have hfold : ∀ sorted : List (String × β), ((l ++ sorted).map (·.1)).Nodup →
      (l.foldl (fun sorted e => insert e.1 e.2 sorted) sorted).Perm (l ++ sorted) := by
    clear h
    induction l with
    | nil => exact fun sorted _ => List.Perm.refl _
    | cons e l ih =>
      intro sorted h
      have hmoved : (l ++ e :: sorted).Perm (e :: l ++ sorted) := List.perm_middle
      have hnodup : ((l ++ e :: sorted).map (·.1)).Nodup := ((hmoved.map _).nodup_iff).2 h
      have hnew : e.1 ∉ sorted.map (·.1) := by
        rw [List.map_append, List.map_cons] at hnodup
        exact (List.nodup_cons.1 (List.nodup_append.1 hnodup).2.1).1
      have hadd : (l ++ insert e.1 e.2 sorted).Perm (l ++ e :: sorted) := (perm_insert hnew).append_left l
      exact (ih _ (((hadd.map _).nodup_iff).2 hnodup)).trans (hadd.trans hmoved)
  have hall := hfold [] (by rwa [List.append_nil])
  rwa [List.append_nil] at hall

theorem Ordered.nodup (h : Ordered l) : (l.map (·.1)).Nodup :=
  List.pairwise_map.2 (h.imp fun hlt => ne_of_lt hlt)

/-- The same elements in order are the same list. -/
theorem Ordered.eq_of_perm {l' : List (String × β)} (h : Ordered l) (h' : Ordered l') (hperm : l.Perm l') :
    l = l' :=
  hperm.eq_of_pairwise (fun _ _ _ _ hlt hgt => absurd hgt (lt_asymm hlt)) h h'

theorem sort_eq_self (h : Ordered l) : sort l = l := (ordered_sort l).eq_of_perm h (perm_sort h.nodup)

end Keyed

end ProxyFleet
