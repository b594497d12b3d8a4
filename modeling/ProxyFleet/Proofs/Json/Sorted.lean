import ProxyFleet.Proofs.Json.Reading
import ProxyFleet.Proofs.Json.Record

/-!
# What is read of sorted values

Every value that is read from text is sorted, and so is all that is in it. Some facts about what is read
hold for that reason: the entries of a map are in order, and so are the fields that a record keeps beside
its own.

* `Json.IsSorted` : a sorted value, and what that says of items and fields;
* `Decoder.Ensures`, `Fields.Ensures` : what is read of a sorted value has a property, with a rule for each
  kind of reading;
* `Decoder.Ensures.record`, `Decoder.Ensures.extended` : a record, and one that keeps further fields.
-/

namespace ProxyFleet

set_option autoImplicit false

namespace Json

/-- The fields of every object in the value are in order. -/
def IsSorted (v : Json) : Prop := v.sorted = v

theorem isSorted_sorted (v : Json) : IsSorted v.sorted := sorted_sorted v

theorem IsSorted.item {items : List Json} (h : IsSorted (.arr items)) : ∀ v ∈ items, IsSorted v := by
  rw [IsSorted, sorted_arr, Json.arr.injEq] at h
  intro v hv
  rw [← h] at hv
  obtain ⟨w, -, rfl⟩ := List.mem_map.1 hv
  exact isSorted_sorted w

theorem IsSorted.ordered {fields : JsonFields} (h : IsSorted (.obj fields)) : Keyed.Ordered fields := by
  rw [IsSorted, sorted_obj, Json.obj.injEq] at h
  rw [← h]
  exact Keyed.ordered_sort _

theorem IsSorted.field {fields : JsonFields} (h : IsSorted (.obj fields)) : ∀ f ∈ fields, IsSorted f.2 := by
  rw [IsSorted, sorted_obj, Json.obj.injEq] at h
  intro f hf
  rw [← h] at hf
  obtain ⟨e, -, rfl⟩ := List.mem_map.1 (Keyed.mem_of_mem_sort hf)
  exact isSorted_sorted e.2

theorem mem_of_field? {fields : JsonFields} {key : String} {v : Json} (h : field? fields key = some v) :
    (key, v) ∈ fields := by
  obtain ⟨f, hf, rfl⟩ := Option.map_eq_some_iff.1 h
  have hkey : f.1 = key := by simpa using List.find?_some hf
  exact hkey ▸ List.mem_of_find?_eq_some hf

end Json

variable {α β : Type}

/-- Whatever is read of a sorted value has the property. -/
def Decoder.Ensures (d : Decoder α) (P : α → Prop) : Prop := ∀ v, Json.IsSorted v → Yields (d v) P

/-- Whatever is built from sorted fields has the property. -/
def Fields.Ensures (f : Fields α) (P : α → Prop) : Prop :=
  ∀ s : FieldSource, (∀ name v, s.get? name = some v → Json.IsSorted v) → Yields (f.build s) P

/-! ## Single values -/

namespace Decoder

variable {d : Decoder α} {P : α → Prop}

theorem Ensures.any (d : Decoder α) : d.Ensures fun _ => True := fun _ _ => .any _

theorem Ensures.nullable (h : d.Ensures P) : d.nullable.Ensures fun a? => ∀ a ∈ a?, P a := by
  have hsome : ∀ v, Json.IsSorted v → Yields ((d v).map some) fun a? => ∀ a ∈ a?, P a := fun v hv =>
    (h v hv).map fun a ha => by simpa using ha
  intro v hv
  cases v with
  | null => exact .ok (by simp)
  | _ => exact hsome _ hv

theorem Ensures.list (h : d.Ensures P) : (list d).Ensures fun as => ∀ a ∈ as, P a := by
  intro v hv
  cases v with
  | arr items => exact .mapM fun w hw => h w (hv.item w hw)
  | _ => exact .error _

theorem i64_ensures : i64.Ensures SixtyFourBits := by
  intro v _
  unfold i64 integer
  split
  · split_ifs with hbounds
    · exact .ok hbounds
    · exact .error _
  · exact .error _

/-- The entries of a map are in order. -/
theorem map_ensures (d : Decoder α) : (map d).Ensures Keyed.Ordered := by
  intro v hv
  cases v with
  | obj fields =>
    have hkeys : ∀ fields : JsonFields, Yields (fields.mapM fun f => (d f.2).map (f.1, ·)) fun entries =>
        entries.map (·.1) = fields.map (·.1) := by
      intro fields
      induction fields with
      | nil => exact .ok rfl
      | cons f fields ih =>
        rw [List.mapM_cons]
        refine Yields.bind (Yields.map (Yields.any (d f.2)) fun a _ => rfl) fun e (he : e.1 = f.1) => ?_
        refine ih.bind fun entries hentries => .ok ?_
        rw [List.map_cons, List.map_cons, he, hentries]
    intro entries hentries
    refine List.pairwise_map.1 ?_
    rw [hkeys fields entries hentries]
    exact List.pairwise_map.2 hv.ordered
  | _ => exact .error _

end Decoder

/-! ## Fields -/

namespace Fields

variable {d : Decoder α} {P : α → Prop} {Q : β → Prop} {name : String}

theorem Ensures.required (h : d.Ensures P) : (required name d).Ensures P := by
  intro s hs
  unfold Fields.required
  dsimp only
  split
  · next v hv => exact h v (hs name v hv)
  · exact .error _

theorem Ensures.default {absent : α} (h : d.Ensures P) (habsent : P absent) :
    (default name d absent).Ensures P := by
  intro s hs
  unfold Fields.default
  dsimp only
  split
  · next v hv => exact h v (hs name v hv)
  · exact .ok habsent

theorem Ensures.optional (h : d.Ensures P) : (optional name d).Ensures fun a? => ∀ a ∈ a?, P a :=
  .default h.nullable (by simp)

theorem Ensures.any (f : Fields α) : f.Ensures fun _ => True := fun _ _ => .any _

theorem Ensures.map {f : Fields α} {g : α → β} (h : f.Ensures P) (hg : ∀ a, P a → Q (g a)) :
    (g <$> f).Ensures Q := fun s hs => Yields.map (h s hs) hg

theorem Ensures.seq {f : Fields (α → β)} {x : Fields α} (hf : f.Ensures fun g => ∀ a, P a → Q (g a))
    (hx : x.Ensures P) : (f <*> x).Ensures Q :=
  fun s hs => Yields.bind (hf s hs) fun _ hg => Yields.map (hx s hs) hg

theorem Ensures.ofObject {f : Fields α} (h : f.Ensures P) {fields : JsonFields}
    (hfields : Json.IsSorted (.obj fields)) : Yields (f.ofObject fields) P := by
  unfold Fields.ofObject
  split
  · exact .error _
  · exact h _ fun name v hv => hfields.field _ (Json.mem_of_field? hv)

theorem Ensures.ofArray {f : Fields α} (h : f.Ensures P) (name : String) {items : List Json}
    (hitems : Json.IsSorted (.arr items)) : Yields (f.ofArray name items) P := by
  have hsource : ∀ key v, Json.field? (f.names.zip items) key = some v → Json.IsSorted v := fun key v hv =>
    hitems.item v (List.of_mem_zip (Json.mem_of_field? hv)).2
  have hbuild : ∀ missing,
      Yields (f.build { get? := Json.field? (f.names.zip items), missing, positional := true }) P :=
    fun missing => h _ hsource
  unfold Fields.ofArray
  dsimp only
  split
  · exact .error _
  · refine (hbuild _).bind fun a ha => ?_
    split_ifs
    · exact .error _
    · exact .ok ha

end Fields

/-! ## Records -/

namespace Decoder

variable {f : Fields α} {P : α → Prop}

theorem Ensures.record (name : String) (h : f.Ensures P) : (record name f).Ensures P := by
  intro v hv
  cases v with
  | obj fields => exact h.ofObject hv
  | arr items => exact h.ofArray name hv
  | _ => exact .error _

/-- What a record keeps beside its own fields is in order, and of other names. -/
theorem Ensures.extended (name : String) (h : f.Ensures P) :
    (extended name f).Ensures fun r => P r.1 ∧ Json.Further f.names r.2 := by
  intro v hv
  cases v with
  | obj fields =>
    refine (h.ofObject hv).bind fun a ha => .ok ⟨ha, hv.ordered.filter _, ?_, ?_⟩
    · exact fun e he => hv.field e (List.mem_of_mem_filter he)
    · intro e he hknown
      obtain ⟨entry, hentry, hname⟩ := List.mem_map.1 hknown
      have hunknown : f.knows e.1 = false := by simpa using (List.mem_filter.1 he).2
      have hknows : f.knows e.1 = true := List.any_eq_true.2 ⟨entry, hentry, by simpa using hname⟩
      exact Bool.false_ne_true (hunknown.symm.trans hknows)
  | _ => exact .error _

end Decoder

end ProxyFleet
