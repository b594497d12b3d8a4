import Mathlib.Data.List.Nodup
import Mathlib.Data.String.Basic
import Mathlib.Tactic.SplitIfs
import ProxyFleet.Proofs.Store.Table
import ProxyFleet.Proofs.Text.Keyed
import ProxyFleet.Sync.Users

/-!
# What a plan asks for

Users are read as a map from names to secrets. A plan asks for a change of each name on
which what is expected and what is held differ, and of no other.

* `Secrets.Sorted` : users in order of their names, each once;
* `find?_cons`, `find?_append`, `find?_insert`, `find?_replace`, `find?_remove`, `find?_ofList` : the
  map that users are, in whatever order;
* `UserChange.Needed` : a change that is called for by the two secrets of its name;
* `mem_syncPlan_iff`, `nodup_syncPlan` : the plan is these changes, one for each name.
-/

namespace ProxyFleet

set_option autoImplicit false

namespace Secrets

/-- The names increase, so that each is there once. -/
def Sorted (s : Secrets) : Prop := s.Pairwise (·.1 < ·.1)

/-! ## The map -/

theorem find?_cons (u x : String) (s : Secrets) (name : String) :
    find? ((u, x) :: s) name = if name = u then some x else find? s name := by
  unfold find?
  by_cases h : name = u
  · simp [h]
  · have hne : (u == name) = false := beq_false_of_ne (Ne.symm h)
    simp [hne, h]

theorem find?_insert (username secret : String) (s : Secrets) (name : String) :
    (insert username secret s).find? name = if name = username then some secret else s.find? name := by
  induction s with
  | nil => exact find?_cons username secret [] name
  | cons e rest ih =>
    obtain ⟨u, x⟩ := e
    by_cases hlt : username < u
    · rw [insert, if_pos hlt]
      exact find?_cons username secret ((u, x) :: rest) name
    · by_cases hgt : u < username
      · rw [insert, if_neg hlt, if_pos hgt, find?_cons, ih, find?_cons]
        by_cases hname : name = u
        · rw [if_pos hname, if_pos hname, if_neg (hname ▸ ne_of_lt hgt)]
        · rw [if_neg hname, if_neg hname]
      · have heq : u = username := le_antisymm (not_lt.1 hlt) (not_lt.1 hgt)
        rw [insert, if_neg hlt, if_neg hgt, find?_cons, find?_cons, heq]
        split_ifs
        · rfl
        · rfl

theorem find?_append (s t : Secrets) (name : String) :
    find? (s ++ t) name = (s.find? name).or (t.find? name) := by
  rw [find?, List.find?_append, Option.map_or]
  rfl

theorem find?_replace (username secret : String) (s : Secrets) (name : String) :
    find? (s.map fun e => if e.1 = username then (e.1, secret) else e) name =
      if name = username then (s.find? name).map (fun _ => secret) else s.find? name := by
  induction s with
  | nil => exact (ite_self _).symm
  | cons e s ih =>
    obtain ⟨u, x⟩ := e
    have hfst : (if u = username then (u, secret) else (u, x)) =
        (u, if u = username then secret else x) := by
      split_ifs <;> rfl
    rw [List.map_cons, hfst, find?_cons, find?_cons, ih]
    by_cases hname : name = u
    · subst hname
      by_cases hu : name = username
      · simp [hu]
      · simp [hu]
    · simp [hname]

theorem find?_remove (username : String) (s : Secrets) (name : String) :
    find? (s.filter (·.1 != username)) name = if name = username then none else s.find? name := by
  induction s with
  | nil => exact (ite_self _).symm
  | cons e s ih =>
    obtain ⟨u, x⟩ := e
    rw [List.filter_cons, find?_cons]
    by_cases hu : u = username
    · rw [if_neg (by simp [hu]), ih, hu]
      split_ifs
      · rfl
      · rfl
    · rw [if_pos (by simp [hu]), find?_cons, ih]
      by_cases hname : name = u
      · rw [if_pos hname, if_pos hname, if_neg (hname ▸ hu)]
      · rw [if_neg hname, if_neg hname]

theorem find?_eq_none_iff {s : Secrets} {name : String} : s.find? name = none ↔ name ∉ s.map (·.1) := by
  rw [find?, Option.map_eq_none_iff, List.find?_eq_none, List.mem_map]
  constructor
  · rintro h ⟨e, he, rfl⟩
    exact h e he (beq_self_eq_true e.1)
  · intro h e he hname
    exact h ⟨e, he, by simpa using hname⟩

/-- Of secrets of which no two have one name, the first with a name is the last. -/
theorem find?_reverse {s : Secrets} (h : (s.map (·.1)).Nodup) (name : String) :
    find? s.reverse name = s.find? name := by
  induction s with
  | nil => rfl
  | cons e s ih =>
    obtain ⟨he, hs⟩ := List.nodup_cons.1 h
    rw [List.reverse_cons, find?_append, ih hs, find?_cons, find?_cons]
    by_cases hname : name = e.1
    · rw [find?_eq_none_iff.2 (hname ▸ he), Option.none_or, if_pos hname, if_pos hname]
    · rw [if_neg hname, if_neg hname]
      exact Option.or_none

/-- A name is found with the secret that it has last. -/
theorem find?_ofList (s : List (String × String)) (name : String) :
    (ofList s).find? name = find? s.reverse name := by
  have hfold : ∀ (s sorted : Secrets),
      (s.foldl (fun sorted e => insert e.1 e.2 sorted) sorted).find? name =
        (find? s.reverse name).or (sorted.find? name) := by
    intro s
    induction s with
    | nil => exact fun _ => rfl
    | cons e s ih =>
      intro sorted
      rw [List.foldl_cons, ih, find?_insert, List.reverse_cons, find?_append, Option.or_assoc, find?_cons]
      split_ifs
      · rfl
      · rfl
  exact (hfold s []).trans (Option.or_none)

/-! ## The order -/

theorem insert_eq_insert (username secret : String) (s : Secrets) :
    insert username secret s = Keyed.insert username secret s := by
  induction s with
  | nil => rfl
  | cons e rest ih => rw [insert, Keyed.insert, ih]

namespace Sorted

theorem ofList (users : List (String × String)) : (Secrets.ofList users).Sorted := by
  have hsort : Secrets.ofList users = Keyed.sort users := by
    unfold Secrets.ofList Keyed.sort
    simp only [insert_eq_insert]
  rw [hsort]
  exact Keyed.ordered_sort users

theorem nodup {s : Secrets} (h : s.Sorted) : (s.map (·.1)).Nodup := Keyed.Ordered.nodup h

theorem mem_iff {s : Secrets} (h : s.Sorted) {username secret : String} :
    (username, secret) ∈ s ↔ s.find? username = some secret := by
  have hdiff : s.Pairwise fun e f => e.1 ≠ f.1 := h.imp fun hlt => ne_of_lt hlt
  rw [find?, Option.map_eq_some_iff]
  simp only [find?_key_eq_some hdiff]
  constructor
  · exact fun hmem => ⟨_, ⟨hmem, rfl⟩, rfl⟩
  · rintro ⟨e, ⟨hmem, rfl⟩, rfl⟩
    exact hmem

end Sorted

end Secrets

/-! ## The plan -/

namespace UserChange

/-- Whose secret is to change. -/
def username : UserChange → String
  | add username _ | update username _ | delete username => username

/-- The secret that is to be held after the change. -/
def target : UserChange → Option String
  | add _ secret | update _ secret => some secret
  | delete _ => none

/-- A change that is called for, by what is expected and what is held: to add a user who is not held,
to update one whose secret is another, and to delete one who is not expected. -/
def Needed (expected held : String → Option String) : UserChange → Prop
  | add username secret => expected username = some secret ∧ held username = none
  | update username secret => expected username = some secret ∧ ∃ x, held username = some x ∧ x ≠ secret
  | delete username => expected username = none ∧ (held username).isSome = true

variable {expected held : String → Option String} {c : UserChange}

theorem Needed.target_eq (h : c.Needed expected held) : c.target = expected c.username := by
  cases c with
  | add u x => exact h.1.symm
  | update u x => exact h.1.symm
  | delete u => exact h.1.symm

theorem Needed.ne (h : c.Needed expected held) : expected c.username ≠ held c.username := by
  cases c with
  | add u x => simp [username, h.1, h.2]
  | update u x =>
    obtain ⟨he, y, hy, hne⟩ := h
    simpa [username, he, hy] using Ne.symm hne
  | delete u =>
    obtain ⟨y, hy⟩ := Option.isSome_iff_exists.1 h.2
    simp [username, h.1, hy]

/-- Whether a change is called for is settled by the two secrets of its name. -/
theorem Needed.congr {held' : String → Option String} (h : c.Needed expected held)
    (heq : held' c.username = held c.username) : c.Needed expected held' := by
  cases c with
  | add u x => exact ⟨h.1, heq.trans h.2⟩
  | update u x =>
    obtain ⟨he, y, hy, hne⟩ := h
    exact ⟨he, y, heq.trans hy, hne⟩
  | delete u => exact ⟨h.1, (congrArg Option.isSome heq).trans h.2⟩

/-- Where the two secrets of a name differ, a change of it is called for. -/
theorem exists_needed {name : String} (h : expected name ≠ held name) :
    ∃ c : UserChange, c.Needed expected held ∧ c.username = name := by
  cases he : expected name with
  | none =>
    refine ⟨.delete name, ⟨he, ?_⟩, rfl⟩
    rw [he] at h
    exact Option.isSome_iff_ne_none.2 (Ne.symm h)
  | some x =>
    cases hh : held name with
    | none => exact ⟨.add name x, ⟨he, hh⟩, rfl⟩
    | some y => exact ⟨.update name x, ⟨he, y, hh, fun hxy => h (by rw [he, hh, hxy])⟩, rfl⟩

end UserChange

/-! ## What is in a plan -/

section Plan

/-- The change that is planned for a user who is expected. -/
def neededFor (actual : Secrets) (u : String × String) : Option UserChange :=
  match actual.find? u.1 with
  | none => some (.add u.1 u.2)
  | some held => if held ≠ u.2 then some (.update u.1 u.2) else none

/-- The change that is planned for a user who is held. -/
def foreignFor (expected : Secrets) (u : String × String) : Option UserChange :=
  if (expected.find? u.1).isNone then some (.delete u.1) else none

variable {expected actual : Secrets} {u : String × String} {c : UserChange}

theorem syncPlan_eq (expected actual : Secrets) :
    syncPlan expected actual =
      expected.filterMap (neededFor actual) ++ actual.filterMap (foreignFor expected) := rfl

theorem neededFor_eq_some_iff :
    neededFor actual u = some c ↔
      c = .add u.1 u.2 ∧ actual.find? u.1 = none ∨
        c = .update u.1 u.2 ∧ ∃ x, actual.find? u.1 = some x ∧ x ≠ u.2 := by
  unfold neededFor
  cases actual.find? u.1 with
  | none => simp [eq_comm]
  | some x => simp [and_comm, eq_comm]

theorem foreignFor_eq_some_iff :
    foreignFor expected u = some c ↔ c = .delete u.1 ∧ expected.find? u.1 = none := by
  unfold foreignFor
  cases expected.find? u.1 with
  | none => simp [eq_comm]
  | some x => simp

/-- The changes of a plan are those that are called for. -/
theorem mem_syncPlan_iff (he : expected.Sorted) (ha : actual.Sorted) (c : UserChange) :
    c ∈ syncPlan expected actual ↔ c.Needed expected.find? actual.find? := by
  simp only [syncPlan_eq, List.mem_append, List.mem_filterMap, neededFor_eq_some_iff,
    foreignFor_eq_some_iff, Prod.exists, he.mem_iff, ha.mem_iff]
  cases c with
  | add username secret => simp [UserChange.Needed, and_comm]
  | update username secret => simp [UserChange.Needed, and_comm]
  | delete username => simp [UserChange.Needed, Option.isSome_iff_exists, and_comm]

theorem username_sublist {f : String × String → Option UserChange}
    (hf : ∀ u c, f u = some c → c.username = u.1) (s : Secrets) :
    List.Sublist ((s.filterMap f).map UserChange.username) (s.map (·.1)) := by
  induction s with
  | nil => exact List.Sublist.refl _
  | cons u s ih =>
    cases hu : f u with
    | none =>
      rw [List.filterMap_cons_none hu]
      exact ih.cons _
    | some c =>
      rw [List.filterMap_cons_some hu, List.map_cons, List.map_cons, hf u c hu]
      exact ih.cons_cons _

/-- No name is changed twice by a plan. -/
theorem nodup_syncPlan (he : expected.Sorted) (ha : actual.Sorted) :
    ((syncPlan expected actual).map UserChange.username).Nodup := by
  have hneeded : ∀ u c, neededFor actual u = some c → c.username = u.1 := by
    intro u c h
    rcases neededFor_eq_some_iff.1 h with ⟨rfl, -⟩ | ⟨rfl, -⟩
    · rfl
    · rfl
  have hforeign : ∀ u c, foreignFor expected u = some c → c.username = u.1 := by
    intro u c h
    obtain ⟨rfl, -⟩ := foreignFor_eq_some_iff.1 h
    rfl
  rw [syncPlan_eq, List.map_append, List.nodup_append]
  refine ⟨he.nodup.sublist (username_sublist hneeded expected),
    ha.nodup.sublist (username_sublist hforeign actual), ?_⟩
  rintro name hin _ hout rfl
  -- a name that is expected is not a foreign one
  obtain ⟨c, hc, rfl⟩ := List.mem_map.1 hin
  obtain ⟨d, hd, hname⟩ := List.mem_map.1 hout
  obtain ⟨v, hv, hvc⟩ := List.mem_filterMap.1 hc
  obtain ⟨w, -, hwd⟩ := List.mem_filterMap.1 hd
  have hfound : expected.find? v.1 = some v.2 := he.mem_iff.1 hv
  have hnone : expected.find? w.1 = none := (foreignFor_eq_some_iff.1 hwd).2
  rw [← hforeign w d hwd, hname, hneeded v c hvc, hfound] at hnone
  exact Option.some_ne_none _ hnone

end Plan

end ProxyFleet
