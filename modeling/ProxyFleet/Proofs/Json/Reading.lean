import Mathlib.Tactic.SplitIfs
import ProxyFleet.Json.Decode
import ProxyFleet.Proofs.Json.Text

/-!
# What reading gives

* `Yields` : whatever a reading gives has a property, with one rule for each way to put readings
  together;
* `Decoder.text_reread`, `Decoder.i64_reread`, `Decoder.list_reread` : what is read of the text of a single
  value is, if anything, the value;
* `Fields.Gives` : a record is read, if at all, as a given one, by a rule for each field.
-/

namespace ProxyFleet

set_option autoImplicit false

/-- Whatever a reading gives has the property. -/
def Yields {ε α : Type} (x : Except ε α) (P : α → Prop) : Prop := ∀ a, x = .ok a → P a

namespace Yields

variable {ε α β : Type} {P : α → Prop} {Q : β → Prop}

theorem ok {a : α} (h : P a) : Yields (.ok a : Except ε α) P := by
  rintro b ⟨⟩
  exact h

theorem error (e : ε) : Yields (.error e : Except ε α) P := by
  rintro b ⟨⟩

/-- Nothing is asked of what is given. -/
theorem any (x : Except ε α) : Yields x fun _ => True := fun _ _ => trivial

theorem bind {x : Except ε α} {f : α → Except ε β} (hx : Yields x P) (hf : ∀ a, P a → Yields (f a) Q) :
    Yields (x >>= f) Q := by
  cases x with
  | error e => exact error e
  | ok a => exact hf a (hx a rfl)

theorem map {x : Except ε α} {f : α → β} (hx : Yields x P) (hf : ∀ a, P a → Q (f a)) : Yields (x.map f) Q := by
  cases x with
  | error e => exact error e
  | ok a => exact ok (hf a (hx a rfl))

theorem mapError {δ : Type} {x : Except ε α} {f : ε → δ} (hx : Yields x P) : Yields (x.mapError f) P := by
  cases x with
  | error e => exact error (f e)
  | ok a => exact ok (hx a rfl)

theorem mapM {f : α → Except ε β} {l : List α} (h : ∀ a ∈ l, Yields (f a) Q) :
    Yields (l.mapM f) fun bs => ∀ b ∈ bs, Q b := by
  induction l with
  | nil => exact ok (by simp)
  | cons a l ih =>
    rw [List.mapM_cons]
    refine (h a (by simp)).bind fun b hb => (ih fun x hx => h x (by simp [hx])).bind fun bs hbs => ok ?_
    simpa using ⟨hb, hbs⟩

/-- Where what is read of each has the key that each has, the keys of all are the same. -/
theorem mapM_keys {κ : Type} {f : α → Except ε β} {k : α → κ} {k' : β → κ} {l : List α}
    (h : ∀ a ∈ l, Yields (f a) fun b => k' b = k a) : Yields (l.mapM f) fun bs => bs.map k' = l.map k := by
  induction l with
  | nil => exact ok rfl
  | cons a l ih =>
    rw [List.mapM_cons]
    refine (h a (by simp)).bind fun b hb => (ih fun x hx => h x (by simp [hx])).bind fun bs hbs => ok ?_
    rw [List.map_cons, List.map_cons, hb, hbs]

end Yields

/-! ## Single values -/

namespace Decoder

variable {α : Type} {w : Json}

theorem text_reread {s : String} (h : (Json.str s).reread? = some w) : Yields (text w) (· = s) := by
  obtain rfl := Option.some.inj h
  exact .ok rfl

theorem i64_reread {i : Int} (h : (Json.int i).reread? = some w) : Yields (i64 w) (· = i) := by
  obtain ⟨n, hn, rfl⟩ := Option.map_eq_some_iff.1 h
  cases n with
  | int j =>
    obtain rfl := (JsonNumber.definite_int i).2 j hn
    unfold i64 integer
    dsimp only
    split_ifs
    · exact .ok rfl
    · exact .error _
  | float x => exact .error _

/-- If of each item the same is read, so it is of the list. -/
theorem list_reread {d : Decoder α} {write : α → Json}
    (h : ∀ a w, (write a).reread? = some w → Yields (d w) (· = a)) {as : List α}
    (hw : (Json.arr (as.map write)).reread? = some w) : Yields (list d w) (· = as) := by
  obtain ⟨ws, hws, rfl⟩ := Option.map_eq_some_iff.1 hw
  show Yields (ws.mapM d) _
  clear hw
  induction as generalizing ws with
  | nil =>
    obtain rfl := Option.some.inj hws
    exact .ok rfl
  | cons a as ih =>
    rw [List.map_cons, Json.rereadItems?] at hws
    obtain ⟨w, hw, hmore⟩ := Option.bind_eq_some_iff.1 hws
    obtain ⟨rest, hrest, rfl⟩ := Option.map_eq_some_iff.1 hmore
    rw [List.mapM_cons]
    refine (h a w hw).bind fun b hb => (ih rest hrest).bind fun bs hbs => .ok ?_
    rw [hb, hbs]

/-- Of a value one thing is read, if any. -/
theorem exists_reread [Inhabited α] (d : Decoder α) (v : Json) :
    ∃ a, ∀ w, v.reread? = some w → Yields (d w) (· = a) := by
  cases v.reread? with
  | none => exact ⟨default, by simp⟩
  | some w =>
    cases hw : d w with
    | error e =>
      refine ⟨default, fun w' h => ?_⟩
      rw [← Option.some.inj h, hw]
      exact .error e
    | ok a =>
      refine ⟨a, fun w' h => ?_⟩
      rw [← Option.some.inj h, hw]
      exact .ok rfl

end Decoder

/-! ## Records -/

namespace Fields

variable {α β : Type} {s : FieldSource}

/-- From these fields the record is read as the given one, if at all. -/
def Gives (f : Fields α) (s : FieldSource) (a : α) : Prop := Yields (f.build s) (· = a)

/-- Under the name of a field what is read of its value is found. -/
theorem field?_reread {fields ws : JsonFields} {name : String} {v : Json} (hws : Json.rereadFields? fields = some ws)
    (hv : Json.field? fields name = some v) : ∃ w, Json.field? ws name = some w ∧ v.reread? = some w := by
  induction fields generalizing ws with
  | nil => exact absurd hv (by simp [Json.field?])
  | cons f fields ih =>
    obtain ⟨key, v'⟩ := f
    rw [Json.rereadFields?] at hws
    obtain ⟨w, hw, hmore⟩ := Option.bind_eq_some_iff.1 hws
    obtain ⟨rest, hrest, rfl⟩ := Option.map_eq_some_iff.1 hmore
    by_cases hkey : key = name
    · have hv : v' = v := by simpa [Json.field?, hkey] using hv
      exact ⟨w, by simp [Json.field?, hkey], hv ▸ hw⟩
    · have hv : Json.field? fields name = some v := by simpa [Json.field?, hkey] using hv
      obtain ⟨w', hw', hread⟩ := ih hrest hv
      exact ⟨w', by simpa [Json.field?, hkey] using hw', hread⟩

theorem Gives.reread {d : Decoder α} {fields ws : JsonFields} {name : String} {v : Json} {a : α}
    (hws : Json.rereadFields? fields = some ws) (hv : Json.field? fields name = some v)
    (h : ∀ w, v.reread? = some w → Yields (d w) (· = a)) :
    (required name d).Gives { get? := Json.field? ws, missing := .missingField, positional := false } a := by
  obtain ⟨w, hw, hread⟩ := field?_reread hws hv
  unfold Gives Fields.required
  dsimp only
  rw [hw]
  exact h w hread

theorem Gives.map {f : Fields α} {a : α} (h : f.Gives s a) (g : α → β) : (g <$> f).Gives s (g a) :=
  Yields.map h fun _ => congrArg g

theorem Gives.seq {f : Fields (α → β)} {x : Fields α} {g : α → β} {a : α} (hf : f.Gives s g)
    (hx : x.Gives s a) : (f <*> x).Gives s (g a) :=
  Yields.bind hf fun _ hg => Yields.map hx fun _ ha => congr hg ha

/-- A record that is read from an object is built from its fields. -/
theorem Gives.record {f : Fields α} {fields : JsonFields} {a : α} (name : String)
    (h : f.Gives { get? := Json.field? fields, missing := .missingField, positional := false } a) :
    Yields (Decoder.record name f (.obj fields)) (· = a) := by
  show Yields (f.ofObject fields) _
  unfold ofObject
  cases f.firstFault fields [] with
  | some e => exact .error e
  | none => exact h

end Fields

end ProxyFleet
