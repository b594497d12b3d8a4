import Mathlib.Data.List.Forall2
import ProxyFleet.Proofs.Json.Sorted

/-!
# Fields that are null

* `Json.Thinned` : a value without some of the fields that are `null`, in objects at any depth;
* `Json.bare`, `Json.thinned_bare` : the value without any of them;
* `Json.firstThere`, `Json.firstGiven` : the first of several values, where a `null` is one or is none;
* `Json.reads_firstThere` : what is read of the first value stays when a value is thinned, unless a `null`
  stands before another value.
-/

namespace ProxyFleet.Json

set_option autoImplicit false

mutual

/-- The second value is the first without some of the fields that are `null`, in objects at any depth. -/
inductive Thinned : Json → Json → Prop where
  | same (v : Json) : Thinned v v
  | object {fields fields' : JsonFields} (field : ∀ key, ThinnedField (field? fields key) (field? fields' key)) :
    Thinned (.obj fields) (.obj fields')

/-- What an object holds under a name, before and after: nothing at all, a `null` that is removed, or a
value that stays, without some of its own fields. -/
inductive ThinnedField : Option Json → Option Json → Prop where
  | missing : ThinnedField none none
  | removed : ThinnedField (some .null) none
  | kept {v v' : Json} (thinned : Thinned v v') : ThinnedField (some v) (some v')

end

theorem ThinnedField.same (v? : Option Json) : ThinnedField v? v? := by
  cases v? with
  | none => exact .missing
  | some v => exact .kept (.same v)

namespace Thinned

variable {fields fields' : JsonFields} {v v' : Json}

theorem field (h : Thinned (.obj fields) (.obj fields')) (key : String) :
    ThinnedField (field? fields key) (field? fields' key) := by
  cases h with
  | same => exact .same _
  | object field => exact field key

theorem eq_or_object (h : Thinned v v') :
    v' = v ∨ ∃ fields fields', v = .obj fields ∧ v' = .obj fields' ∧ Thinned (.obj fields) (.obj fields') := by
  cases h with
  | same => exact .inl rfl
  | object field => exact .inr ⟨_, _, rfl, rfl, .object field⟩

theorem str? (h : Thinned v v') : v'.str? = v.str? := by
  rcases h.eq_or_object with rfl | ⟨fields, fields', rfl, rfl, -⟩
  · rfl
  · rfl

theorem get? (h : Thinned v v') (key : String) : ThinnedField (v.get? key) (v'.get? key) := by
  rcases h.eq_or_object with rfl | ⟨fields, fields', rfl, rfl, hfields⟩
  · exact .same _
  · exact hfields.field key

end Thinned

namespace ThinnedField

variable {v? v?' : Option Json}

theorem str? (h : ThinnedField v? v?') : v?'.bind Json.str? = v?.bind Json.str? := by
  cases h with
  | missing => rfl
  | removed => rfl
  | kept thinned => exact thinned.str?

theorem get? (h : ThinnedField v? v?') (key : String) :
    ThinnedField (v?.bind (Json.get? · key)) (v?'.bind (Json.get? · key)) := by
  cases h with
  | missing => exact .missing
  | removed => exact .missing
  | kept thinned => exact thinned.get? key

end ThinnedField

/-! ## All of them removed -/

/-- Whether a value is `null`. -/
def isNull : Json → Bool
  | .null => true
  | _ => false

/-- A value that is there, where a `null` is not. -/
def given? (v? : Option Json) : Option Json := v?.filter (!·.isNull)

@[simp] theorem given?_none : given? none = none := rfl

@[simp] theorem given?_null : given? (some .null) = none := rfl

theorem given?_of_not_null {v : Json} (h : v ≠ .null) : given? (some v) = some v := by
  cases v with
  | null => exact absurd rfl h
  | _ => rfl

/-- The fields without those that are `null`. -/
def nonNull (fields : JsonFields) : JsonFields := fields.filter fun f => !(field? fields f.1).any isNull

theorem field?_nonNull (fields : JsonFields) (key : String) :
    field? (nonNull fields) key = given? (field? fields key) := by
  -- whether a field stays depends on its name only
  have hname : (fun f : String × Json => decide ((!(field? fields f.1).any isNull) = true ∧ (f.1 == key) = true)) =
      fun f => !(field? fields key).any isNull && f.1 == key := by
    funext f
    by_cases hf : f.1 = key
    · simp [hf]
    · simp [hf]
  rw [field?, nonNull, List.find?_filter, hname]
  cases hv : field? fields key with
  | none => simpa [field?] using hv
  | some v =>
    rw [Option.any_some, given?, Option.filter_some]
    cases v.isNull with
    | true => simp
    | false => simpa [field?] using hv

mutual

/-- The value without any field that is `null`, in objects at any depth. -/
def bare : Json → Json
  | .obj fields => .obj (nonNull (bareFields fields))
  | .arr items => .arr items
  | .null => .null
  | .bool b => .bool b
  | .num n => .num n
  | .str s => .str s

/-- Each field's value without them; the fields stay where they are. -/
def bareFields : JsonFields → JsonFields
  | [] => []
  | (k, v) :: rest => (k, bare v) :: bareFields rest

end

/-- The fields of an object without any that is `null`, at any depth. -/
def stripped (fields : JsonFields) : JsonFields := nonNull (bareFields fields)

theorem bare_obj (fields : JsonFields) : bare (.obj fields) = .obj (stripped fields) := by
  rw [bare, stripped]

theorem field?_bareFields (fields : JsonFields) (key : String) :
    field? (bareFields fields) key = (field? fields key).map bare := by
  induction fields with
  | nil => rfl
  | cons f fields ih =>
    unfold field? at ih ⊢
    by_cases hf : f.1 = key
    · simp [bareFields, hf]
    · simpa [bareFields, hf] using ih

theorem field?_stripped (fields : JsonFields) (key : String) :
    field? (stripped fields) key = (given? (field? fields key)).map bare := by
  rw [stripped, field?_nonNull, field?_bareFields]
  cases field? fields key with
  | none => rfl
  | some v =>
    cases v with
    | null => rfl
    | obj fields => rw [Option.map_some, bare_obj]; rfl
    | _ => rfl

theorem field?_stripped_of_null {fields : JsonFields} {key : String} (h : field? fields key = some .null) :
    field? (stripped fields) key = none := by
  rw [field?_stripped, h]
  rfl

theorem get?_bare (v : Json) (key : String) : v.bare.get? key = (given? (v.get? key)).map bare := by
  cases v with
  | obj fields =>
    rw [bare_obj]
    exact field?_stripped fields key
  | _ => simp [bare, get?]

theorem bind_get?_stripped (fields : JsonFields) (outer key : String) :
    (field? (stripped fields) outer).bind (get? · key) =
      (given? ((field? fields outer).bind (get? · key))).map bare := by
  rw [field?_stripped]
  cases field? fields outer with
  | none => rfl
  | some v =>
    by_cases hnull : v = .null
    · subst hnull
      rfl
    · rw [given?_of_not_null hnull]
      exact get?_bare v key

theorem thinnedField_stripped {fields : JsonFields} (h : ∀ f ∈ fields, Thinned f.2 f.2.bare) (key : String) :
    ThinnedField (field? fields key) (field? (stripped fields) key) := by
  rw [field?_stripped]
  cases hv : field? fields key with
  | none => exact .missing
  | some v =>
    by_cases hnull : v = .null
    · subst hnull
      exact .removed
    · rw [given?_of_not_null hnull]
      exact .kept (h _ (mem_of_field? hv))

mutual

theorem thinned_bare : ∀ v : Json, Thinned v v.bare
  | .obj fields => bare_obj fields ▸ .object (thinnedField_stripped (thinned_bareFields fields))
  | .arr _ | .null | .bool _ | .num _ | .str _ => .same _

theorem thinned_bareFields : ∀ (fields : JsonFields), ∀ f ∈ fields, Thinned f.2 f.2.bare
  | [] => by simp
  | (_, v) :: rest => List.forall_mem_cons.2 ⟨thinned_bare v, thinned_bareFields rest⟩

end

theorem thinned_stripped (fields : JsonFields) : Thinned (.obj fields) (.obj (stripped fields)) :=
  bare_obj fields ▸ thinned_bare (.obj fields)

/-! ## The first of several values -/

/-- The first value that is there; a `null` is there as well. -/
def firstThere (vs : List (Option Json)) : Option Json := vs.findSome? id

/-- The first value that is given; a `null` is none. -/
def firstGiven (vs : List (Option Json)) : Option Json := vs.findSome? given?

@[simp] theorem firstThere_nil : firstThere [] = none := rfl

@[simp] theorem firstGiven_nil : firstGiven [] = none := rfl

@[simp] theorem firstThere_cons (v? : Option Json) (vs : List (Option Json)) :
    firstThere (v? :: vs) = v?.or (firstThere vs) := by
  cases v? with
  | _ => rfl

@[simp] theorem firstGiven_cons (v? : Option Json) (vs : List (Option Json)) :
    firstGiven (v? :: vs) = (given? v?).or (firstGiven vs) := by
  rw [firstGiven, List.findSome?_cons]
  cases given? v? with
  | _ => rfl

theorem firstThere_pair_none (w? : Option Json) : firstThere [none, w?] = w? := by simp

section Reading

variable {α : Type} {read : Option Json → α} (hnull : read (some .null) = read none)
  (hread : ∀ {v v' : Json}, Thinned v v' → read (some v') = read (some v))

include hnull

theorem reads_given? (v? : Option Json) : read (given? v?) = read v? := by
  cases v? with
  | none => rfl
  | some v =>
    by_cases hv : v = .null
    · subst hv
      exact hnull.symm
    · rw [given?_of_not_null hv]

include hread

theorem reads_field {v? v?' : Option Json} (h : ThinnedField v? v?') : read v?' = read v? := by
  cases h with
  | missing => rfl
  | removed => exact hnull.symm
  | kept thinned => exact hread thinned

omit hnull in
/-- Where no `null` is left, what is read is what is read of the first value that is given. -/
theorem reads_bare {vs vs' : List (Option Json)} (h : List.Forall₂ (fun v? v?' => v?' = (given? v?).map bare) vs vs') :
    read (firstThere vs') = read (firstGiven vs) := by
  induction h with
  | nil => rfl
  | @cons v? v?' vs vs' hv _ ih =>
    subst hv
    rw [firstThere_cons, firstGiven_cons]
    cases given? v? with
    | none => exact ih
    | some v => exact hread (thinned_bare v)

/-- However the values are thinned, what is read is what is read of the first that is given, or of none. -/
theorem reads_thinned {vs vs' : List (Option Json)} (h : List.Forall₂ ThinnedField vs vs') :
    read (firstThere vs') = read (firstGiven vs) ∨ read (firstThere vs') = read none := by
  induction h with
  | nil => exact .inr rfl
  | @cons v? v?' vs vs' hv _ ih =>
    cases hv with
    | missing => simpa using ih
    | removed => simpa using ih
    | @kept v v' thinned =>
      rw [firstThere_cons, Option.some_or, hread thinned]
      by_cases hv : v = .null
      · exact .inr (hv ▸ hnull)
      · rw [firstGiven_cons, given?_of_not_null hv, Option.some_or]
        exact .inl rfl

/-- What is read stays when the values are thinned, unless a `null` stands before another value. -/
theorem reads_firstThere {vs vs' : List (Option Json)} (h : List.Forall₂ ThinnedField vs vs')
    (hfirst : firstThere vs = some .null → read (firstGiven vs) = read none) :
    read (firstThere vs') = read (firstThere vs) := by
  induction h with
  | nil => rfl
  | @cons v? v?' vs vs' hv hvs ih =>
    cases hv with
    | missing => exact ih hfirst
    | kept thinned => exact hread thinned
    | removed =>
      have hnone := hfirst rfl
      rcases reads_thinned hnull hread hvs with hgiven | hmissing
      · exact (hgiven.trans hnone).trans hnull.symm
      · exact hmissing.trans hnull.symm

/-- The same for two values: what stands behind a `null` has to be read as nothing. -/
theorem reads_firstThere_pair {v? v?' w? w?' : Option Json} (hv : ThinnedField v? v?') (hw : ThinnedField w? w?')
    (hbehind : v? = some .null → read w? = read none) :
    read (firstThere [v?', w?']) = read (firstThere [v?, w?]) := by
  refine reads_firstThere hnull hread (.cons hv (.cons hw .nil)) fun hfirst => ?_
  cases v? with
  | none =>
    obtain rfl : w? = some .null := by simpa using hfirst
    rfl
  | some v =>
    obtain rfl : v = .null := Option.some.inj hfirst
    have hgiven : firstGiven [some .null, w?] = given? w? := by simp
    rw [hgiven, reads_given? hnull]
    exact hbehind rfl

end Reading

end ProxyFleet.Json
