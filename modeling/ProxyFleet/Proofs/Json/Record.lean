import ProxyFleet.Json.Decode
import ProxyFleet.Proofs.Json.Text
import ProxyFleet.Proofs.Store.Table
import ProxyFleet.Proofs.Text.Keyed
import ProxyFleet.Protocol.Canonical

/-!
# Records are read as they were written

An object that was written from the fields of a record, and put in order, has these fields and its
further ones, wherever they have come to stand. That is all that reading the record back needs to know.

* `Json.sorted_arr`, `Json.sorted_obj` : sorted values;
* `Json.LegibleField`, `Json.legible_record` : a record is legible if its fields are;
* `Json.Holds`, `Json.holds_sorted` : the fields of an object that was written and put in order;
* `Json.holds_record`, `Json.Holds.absent` : the same where there are no further fields;
* `Fields.Reads` : a record is read from fields, by a rule for each kind of field;
* `Decoder.record_sorted`, `Decoder.extended_sorted` : the record is read from what was written.
-/

namespace ProxyFleet

set_option autoImplicit false

/-- An integer of 64 bits with a sign. -/
def SixtyFourBits (i : Int) : Prop := -(Nat.pow 2 63 : Int) ≤ i ∧ i ≤ Nat.pow 2 63 - 1

namespace Json

/-! ## Sorted values -/

theorem sortedItems_eq_map (items : List Json) : sortedItems items = items.map sorted := by
  induction items with
  | nil => rfl
  | cons v items ih => rw [sortedItems, ih, List.map_cons]

theorem sortedFields_eq_map (fields : JsonFields) : sortedFields fields = fields.map fun f => (f.1, f.2.sorted) := by
  induction fields with
  | nil => rfl
  | cons f fields ih => rw [sortedFields, ih, List.map_cons]

theorem insertField_eq_insert (key : String) (value : Json) (fields : JsonFields) :
    insertField key value fields = Keyed.insert key value fields := by
  induction fields with
  | nil => rfl
  | cons f rest ih => rw [insertField, Keyed.insert, ih]

theorem sortFields_eq_sort (fields : JsonFields) : sortFields fields = Keyed.sort fields := by
  unfold sortFields Keyed.sort
  simp only [insertField_eq_insert]

@[simp] theorem sorted_str (s : String) : (str s).sorted = str s := by rw [sorted]

@[simp] theorem sorted_bool (b : Bool) : (bool b).sorted = bool b := by rw [sorted]

@[simp] theorem sorted_num (n : JsonNumber) : (num n).sorted = num n := by rw [sorted]

theorem sorted_arr (items : List Json) : (arr items).sorted = arr (items.map sorted) := by
  rw [sorted, sortedItems_eq_map]

theorem sorted_obj (fields : JsonFields) :
    (obj fields).sorted = obj (Keyed.sort (fields.map fun f => (f.1, f.2.sorted))) := by
  rw [sorted, sortedFields_eq_map, sortFields_eq_sort]

theorem sorted_fields_sorted {fields : JsonFields} (h : ∀ f ∈ fields, f.2.sorted.sorted = f.2.sorted) :
    (obj fields).sorted.sorted = (obj fields).sorted := by
  rw [sorted_obj, sorted_obj]
  have hsame : ∀ f ∈ Keyed.sort (fields.map fun f => (f.1, f.2.sorted)), (f.1, f.2.sorted) = id f := by
    intro f hf
    obtain ⟨e, he, rfl⟩ := List.mem_map.1 (Keyed.mem_of_mem_sort hf)
    exact Prod.ext rfl (h e he)
  rw [List.map_congr_left hsame, List.map_id, Keyed.sort_eq_self (Keyed.ordered_sort _)]

theorem sorted_items_sorted {items : List Json} (h : ∀ v ∈ items, v.sorted.sorted = v.sorted) :
    (arr items).sorted.sorted = (arr items).sorted := by
  rw [sorted_arr, sorted_arr, List.map_map]
  exact congrArg arr (List.map_congr_left h)

mutual

/-- What is sorted stays as it is when it is sorted again. -/
theorem sorted_sorted : ∀ v : Json, v.sorted.sorted = v.sorted
  | .arr items => sorted_items_sorted (sorted_sorted_items items)
  | .obj fields => sorted_fields_sorted (sorted_sorted_fields fields)
  | .null | .bool _ | .num _ | .str _ => rfl

theorem sorted_sorted_items : ∀ (items : List Json), ∀ v ∈ items, v.sorted.sorted = v.sorted
  | [] => by simp
  | v :: rest => List.forall_mem_cons.2 ⟨sorted_sorted v, sorted_sorted_items rest⟩

theorem sorted_sorted_fields : ∀ (fields : JsonFields), ∀ f ∈ fields, f.2.sorted.sorted = f.2.sorted
  | [] => by simp
  | (_, v) :: rest => List.forall_mem_cons.2 ⟨sorted_sorted v, sorted_sorted_fields rest⟩

end

@[simp] theorem sorted_ints (is : List Int) : (ints is).sorted = ints is := by
  rw [ints, sorted_arr, List.map_map]
  simp [Function.comp_def, int]

@[simp] theorem sorted_strings (ss : List String) : (strings ss).sorted = strings ss := by
  rw [strings, sorted_arr, List.map_map]
  simp [Function.comp_def]

/-! ## The fields of an object -/

theorem field?_eq_some_iff {fields : JsonFields} (h : (fields.map (·.1)).Nodup) {key : String} {v : Json} :
    field? fields key = some v ↔ (key, v) ∈ fields := by
  rw [field?, Option.map_eq_some_iff]
  simp only [find?_key_eq_some (List.pairwise_map.1 h)]
  constructor
  · rintro ⟨f, ⟨hf, rfl⟩, rfl⟩
    exact hf
  · exact fun hf => ⟨_, ⟨hf, rfl⟩, rfl⟩

theorem field?_eq_none_iff {fields : JsonFields} {key : String} :
    field? fields key = none ↔ key ∉ fields.map (·.1) := by
  rw [field?, Option.map_eq_none_iff, List.find?_eq_none, List.mem_map]
  constructor
  · rintro h ⟨f, hf, rfl⟩
    exact h f hf (beq_self_eq_true f.1)
  · intro h f hf hkey
    exact h ⟨f, hf, by simpa using hkey⟩

/-- The fields that are present. -/
def present (specs : List (String × Option Json)) : JsonFields := specs.filterMap fun f => f.2.map (f.1, ·)

theorem record_eq (specs : List (String × Option Json)) : record specs = obj (present specs) := rfl

theorem mem_present {specs : List (String × Option Json)} {f : String × Json} :
    f ∈ present specs ↔ (f.1, some f.2) ∈ specs := by
  rw [present, List.mem_filterMap]
  constructor
  · rintro ⟨⟨key, v?⟩, hspec, hf⟩
    obtain ⟨v, rfl, rfl⟩ := Option.map_eq_some_iff.1 hf
    exact hspec
  · exact fun h => ⟨_, h, rfl⟩

theorem nodup_present {specs : List (String × Option Json)} (h : (specs.map (·.1)).Nodup) :
    ((present specs).map (·.1)).Nodup := by
  refine h.sublist ?_
  induction specs with
  | nil => exact List.Sublist.refl _
  | cons f specs ih =>
    obtain ⟨key, v?⟩ := f
    have hrest := ih (List.nodup_cons.1 h).2
    cases v? with
    | none => exact hrest.cons key
    | some v => exact hrest.cons_cons key

/-! ## Legible records -/

section Legible

variable {depth : Nat}

@[simp] theorem legible_str (s : String) : Legible depth (str s) := by
  cases depth with
  | _ => trivial

@[simp] theorem legible_bool (b : Bool) : Legible depth (bool b) := by
  cases depth with
  | _ => trivial

theorem legible_int {i : Int} (hlow : -(Nat.pow 2 63 : Int) ≤ i) (hhigh : i < Nat.pow 2 64) :
    Legible depth (int i) := by
  cases depth with
  | _ => exact JsonNumber.legible_int hlow hhigh

theorem legible_nat {n : Nat} (h : n < Nat.pow 2 64) : Legible depth (nat n) := legible_int (by omega) (by omega)

@[simp] theorem legible_u16 (n : UInt16) : Legible depth (nat n.toNat) :=
  legible_nat (Nat.lt_of_lt_of_le n.toNat_lt (by decide))

@[simp] theorem legible_u32 (n : UInt32) : Legible depth (u32 n) :=
  legible_nat (Nat.lt_of_lt_of_le n.toNat_lt (by decide))

theorem legible_arr {α : Type} {write : α → Json} {as : List α} (h : ∀ a ∈ as, Legible depth (write a)) :
    Legible (depth + 1) (arr (as.map write)) := List.forall_mem_map.2 h

@[simp] theorem legible_strings (ss : List String) : Legible (depth + 1) (strings ss) :=
  legible_arr fun s _ => legible_str s

/-- A field is legible if it is present at all. -/
def LegibleField (depth : Nat) (v? : Option Json) : Prop := ∀ v ∈ v?, Legible depth v

@[simp] theorem legibleField_none : LegibleField depth none := by simp [LegibleField]

@[simp] theorem legibleField_some {v : Json} : LegibleField depth (some v) ↔ Legible depth v := by
  simp [LegibleField]

@[simp] theorem legibleField_map {α : Type} {write : α → Json} {a? : Option α} :
    LegibleField depth (a?.map write) ↔ ∀ a ∈ a?, Legible depth (write a) := by
  simp [LegibleField]

theorem legibleField_unless {p : Prop} [Decidable p] {v : Json} (h : Legible depth v) :
    LegibleField depth (if p then none else some v) := by
  split_ifs
  · exact legibleField_none
  · exact legibleField_some.2 h

@[simp] theorem legibleField_nonEmptyText (s : String) : LegibleField depth (nonEmptyText s) :=
  legibleField_unless (legible_str s)

@[simp] theorem legibleField_nonEmptyTexts (ss : List String) : LegibleField (depth + 1) (nonEmptyTexts ss) :=
  legibleField_unless (legible_strings ss)

theorem legible_record {specs : List (String × Option Json)} (h : ∀ f ∈ specs, LegibleField depth f.2) :
    Legible (depth + 1) (record specs) := fun f hf => h _ (mem_present.1 hf) f.2 rfl

/-- Putting fields in order does not make a value harder to read. -/
theorem Legible.sorted {depth : Nat} {v : Json} (h : Legible depth v) : Legible depth v.sorted := by
  induction depth generalizing v with
  | zero =>
    cases v with
    | arr items | obj fields => exact absurd h id
    | _ => exact h
  | succ depth ih =>
    cases v with
    | arr items =>
      rw [sorted_arr]
      exact List.forall_mem_map.2 fun v hv => ih (h v hv)
    | obj fields =>
      rw [sorted_obj]
      intro f hf
      obtain ⟨e, he, rfl⟩ := List.mem_map.1 (Keyed.mem_of_mem_sort hf)
      exact ih (h e he)
    | _ => exact h

end Legible

end Json

theorem SixtyFourBits.legible {i : Int} (h : SixtyFourBits i) {depth : Nat} : Json.Legible depth (.int i) :=
  Json.legible_int h.1 (Int.lt_of_le_of_lt h.2 (by decide))

namespace Json

/-! ## Fields in order -/

/-- The fields are those of a record that are present, each sorted, and further ones of other names. -/
structure Holds (fields : JsonFields) (specs : List (String × Option Json)) (extra : JsonFields) : Prop where
  nodup : (fields.map (·.1)).Nodup
  field : ∀ key v?, (key, v?) ∈ specs → field? fields key = v?.map sorted
  extra : ∀ knows : String → Bool, (∀ key, knows key = true ↔ key ∈ specs.map (·.1)) →
    fields.filter (fun f => !knows f.1) = extra

/-- Further fields that are in order already, of other names than those of a record. -/
structure Further (names : List String) (extra : JsonFields) : Prop where
  ordered : Keyed.Ordered extra
  sorted : ∀ f ∈ extra, f.2.sorted = f.2
  unknown : ∀ f ∈ extra, f.1 ∉ names

theorem Further.nil (names : List String) : Further names [] :=
  ⟨List.Pairwise.nil, by simp, by simp⟩

theorem nodup_present_append {specs : List (String × Option Json)} {extra : JsonFields}
    (hnodup : (specs.map (·.1)).Nodup) (hextra : Further (specs.map (·.1)) extra) :
    ((present specs ++ extra).map (·.1)).Nodup := by
  rw [List.map_append, List.nodup_append]
  refine ⟨nodup_present hnodup, hextra.ordered.nodup, ?_⟩
  rintro key hkey _ hother rfl
  obtain ⟨f, hf, rfl⟩ := List.mem_map.1 hkey
  obtain ⟨e, he, heq⟩ := List.mem_map.1 hother
  exact hextra.unknown e he (heq ▸ List.mem_map.2 ⟨_, mem_present.1 hf, rfl⟩)

/-- What was written of a record and put in order. -/
theorem holds_sorted {specs : List (String × Option Json)} {extra : JsonFields}
    (hnodup : (specs.map (·.1)).Nodup) (hextra : Further (specs.map (·.1)) extra) :
    ∃ fields, (obj (present specs ++ extra)).sorted = obj fields ∧ Holds fields specs extra := by
  let base := (present specs ++ extra).map fun f => (f.1, f.2.sorted)
  have hkeys : base.map (·.1) = (present specs ++ extra).map (·.1) := by
    rw [List.map_map]
    rfl
  have hbase : (base.map (·.1)).Nodup := hkeys ▸ nodup_present_append hnodup hextra
  have hperm : (Keyed.sort base).Perm base := Keyed.perm_sort hbase
  have hsorted : ((Keyed.sort base).map (·.1)).Nodup := (Keyed.ordered_sort base).nodup
  -- the fields that were written are there, each under its name, and nothing else is but the further ones
  refine ⟨Keyed.sort base, sorted_obj _, hsorted, fun key v? hspec => ?_, fun knows hknows => ?_⟩
  · cases v? with
    | some v =>
      refine (field?_eq_some_iff hsorted).2 (hperm.mem_iff.2 (List.mem_map.2 ⟨(key, v), ?_, rfl⟩))
      exact List.mem_append_left _ (mem_present.2 hspec)
    | none =>
      refine field?_eq_none_iff.2 fun hkey => ?_
      rw [(hperm.map _).mem_iff, hkeys, List.mem_map] at hkey
      obtain ⟨f, hf, rfl⟩ := hkey
      rcases List.mem_append.1 hf with hf | hf
      · -- a name stands for one field of a record only
        have heq := List.inj_on_of_nodup_map hnodup (mem_present.1 hf) hspec rfl
        exact absurd (Prod.mk.inj heq).2 (Option.some_ne_none _)
      · exact hextra.unknown f hf (List.mem_map.2 ⟨_, hspec, rfl⟩)
  · have hrest : base.filter (fun f => !knows f.1) = extra := by
      have hknown : ∀ f ∈ present specs, knows f.1 = true := fun f hf =>
        (hknows f.1).2 (List.mem_map.2 ⟨_, mem_present.1 hf, rfl⟩)
      have hnew : ∀ f ∈ extra, ¬knows f.1 = true := fun f hf hknown =>
        hextra.unknown f hf ((hknows f.1).1 hknown)
      rw [List.filter_map, List.filter_append, List.filter_eq_nil_iff.2, List.filter_eq_self.2, List.nil_append]
      · have hsame : ∀ f ∈ extra, (f.1, f.2.sorted) = id f := fun f hf => Prod.ext rfl (hextra.sorted f hf)
        exact (List.map_congr_left hsame).trans (List.map_id _)
      · intro f hf
        simpa using hnew f hf
      · intro f hf
        simpa using hknown f hf
    have hordered : Keyed.Ordered ((Keyed.sort base).filter fun f => !knows f.1) :=
      (Keyed.ordered_sort base).filter _
    refine hordered.eq_of_perm hextra.ordered ?_
    rw [← hrest]
    exact hperm.filter _

/-- A record that was written and put in order has no further fields. -/
theorem holds_record {specs : List (String × Option Json)} (hnodup : (specs.map (·.1)).Nodup) :
    ∃ fields, (record specs).sorted = obj fields ∧ Holds fields specs [] := by
  obtain ⟨fields, heq, hfields⟩ := holds_sorted hnodup (.nil _)
  rw [List.append_nil, ← record_eq] at heq
  exact ⟨fields, heq, hfields⟩

theorem Holds.absent {fields : JsonFields} {specs : List (String × Option Json)} (h : Holds fields specs [])
    {key : String} (hkey : key ∉ specs.map (·.1)) : field? fields key = none := by
  have hrest := h.extra (fun name => decide (name ∈ specs.map (·.1))) fun name => by simp
  rw [field?_eq_none_iff, List.mem_map]
  rintro ⟨f, hf, rfl⟩
  exact absurd hrest (List.ne_nil_of_mem (List.mem_filter.2 ⟨hf, by simpa using hkey⟩))

end Json

/-! ## Single values -/

namespace Decoder

variable {α : Type} {d : Decoder α}

theorem nullable_eq_ok {v : Json} {a : α} (hv : v ≠ .null) (h : d v = .ok a) : d.nullable v = .ok (some a) := by
  cases v with
  | null => exact absurd rfl hv
  | _ =>
    show (d _).map some = _
    rw [h]
    rfl

theorem nullable_record {specs : List (String × Option Json)} {a : α}
    (h : d (Json.record specs).sorted = .ok a) : d.nullable (Json.record specs).sorted = .ok (some a) :=
  nullable_eq_ok (by rw [Json.record_eq, Json.sorted_obj]; simp) h

theorem list_written {write : α → Json} {as : List α} (h : ∀ a ∈ as, d (write a) = .ok a) :
    list d (Json.arr (as.map write)) = .ok as := by
  show (as.map write).mapM d = _
  induction as with
  | nil => rfl
  | cons a as ih =>
    obtain ⟨ha, has⟩ := List.forall_mem_cons.1 h
    rw [List.map_cons, List.mapM_cons, ha, ih has]
    rfl

theorem list_sorted {write : α → Json} {as : List α} (h : ∀ a ∈ as, d (write a).sorted = .ok a) :
    list d (Json.arr (as.map write)).sorted = .ok as := by
  rw [Json.sorted_arr, List.map_map]
  exact list_written h

theorem texts_sorted (ss : List String) : list text (Json.strings ss).sorted = .ok ss :=
  list_sorted fun _ _ => rfl

theorem integer_eq_ok {low high i : Int} (hlow : low ≤ i) (hhigh : i ≤ high) (expected : String) :
    integer low high expected (.int i) = .ok i := if_pos ⟨hlow, hhigh⟩

theorem text_eq_ok (s : String) : text (.str s) = .ok s := rfl

theorem i64_eq_ok {i : Int} (h : SixtyFourBits i) : i64 (Json.int i) = .ok i := integer_eq_ok h.1 h.2 _

theorem i64_int {i : Int} (h : SixtyFourBits i) : i64 (Json.int i).sorted = .ok i := by
  rw [Json.int, Json.sorted_num]
  exact i64_eq_ok h

theorem list_ints {is : List Int} (h : ∀ i ∈ is, SixtyFourBits i) : list i64 (Json.ints is) = .ok is := by
  rw [← Json.sorted_ints]
  exact list_sorted fun i hi => i64_int (h i hi)

theorem u16_nat (n : UInt16) : u16 (.nat n.toNat) = .ok n := by
  have hn := n.toNat_lt
  have hint : integer 0 65535 "u16" (.nat n.toNat) = .ok (n.toNat : Int) :=
    integer_eq_ok (by omega) (by omega) _
  rw [u16, hint]
  show Except.ok (UInt16.ofNat ((n.toNat : Int).toNat)) = _
  rw [Int.toNat_natCast, UInt16.ofNat_toNat]

theorem u32_u32 (n : UInt32) : u32 (.u32 n) = .ok n := by
  have hn := n.toNat_lt
  have hpow : (Nat.pow 2 32 : Nat) = 2 ^ 32 := rfl
  have hint : integer 0 (Nat.pow 2 32 - 1) "u32" (.u32 n) = .ok (n.toNat : Int) :=
    integer_eq_ok (by omega) (by omega) _
  rw [u32, hint]
  show Except.ok (UInt32.ofNat ((n.toNat : Int).toNat)) = _
  rw [Int.toNat_natCast, UInt32.ofNat_toNat]

end Decoder

/-! ## Reading records -/

namespace Fields

variable {α β : Type} {fields : JsonFields}

/-- From these fields of an object the record is read, and none of them is refused. -/
structure Reads (f : Fields α) (fields : JsonFields) (a : α) : Prop where
  accepts : ∀ entry ∈ f.known, ∀ v, Json.field? fields entry.1 = some v → entry.2 v = none
  build : f.build { get? := Json.field? fields, missing := .missingField, positional := false } = .ok a

theorem refusal_eq_none {d : Decoder α} {v : Json} {a : α} (h : d v = .ok a) : refusal d v = none := by
  rw [refusal, h]

variable {name : String} {a : α} {v? : Option Json}

/-- A field that has to be present is present. -/
theorem Reads.present {d : Decoder α} {v : Json} (hv : Json.field? fields name = some v) (h : d v = .ok a) :
    (required name d).Reads fields a where
  accepts entry hentry w hw := by
    obtain rfl := List.mem_singleton.1 hentry
    obtain rfl : v = w := Option.some.inj (hv.symm.trans hw)
    exact refusal_eq_none h
  build := by
    simp only [Fields.required, hv]
    exact h

/-- A field that has to be present was written. -/
theorem Reads.required {d : Decoder α} {v : Json} (hv : Json.field? fields name = (some v).map Json.sorted)
    (h : d v.sorted = .ok a) : (required name d).Reads fields a := .present hv h

/-- A field with a value for where it is absent was written, or it was left out and had that value. -/
theorem Reads.default {d : Decoder α} {absent : α} (hv : Json.field? fields name = v?.map Json.sorted)
    (hsome : ∀ v ∈ v?, d v.sorted = .ok a) (hnone : v? = none → absent = a) :
    (default name d absent).Reads fields a where
  accepts entry hentry w hw := by
    obtain rfl := List.mem_singleton.1 hentry
    obtain ⟨v, hv', rfl⟩ := Option.map_eq_some_iff.1 (hv.symm.trans hw)
    exact refusal_eq_none (hsome v hv')
  build := by
    simp only [Fields.default, hv]
    cases v? with
    | none => rw [← hnone rfl]; rfl
    | some v => exact hsome v rfl

/-- A field that may be absent was written where it was present. -/
theorem Reads.optional {d : Decoder α} {write : α → Json} {a? : Option α}
    (hv : Json.field? fields name = (a?.map write).map Json.sorted)
    (h : ∀ a ∈ a?, d.nullable (write a).sorted = .ok (some a)) : (optional name d).Reads fields a? := by
  refine Reads.default hv ?_ ?_
  · intro v hv
    obtain ⟨a, ha, rfl⟩ := Option.map_eq_some_iff.1 hv
    rw [h a ha, ha]
  · exact fun hnone => (Option.map_eq_none_iff.1 hnone).symm

theorem Reads.map {f : Fields α} (h : f.Reads fields a) (g : α → β) : (g <$> f).Reads fields (g a) where
  accepts := h.accepts
  build := by
    show g <$> f.build _ = _
    rw [h.build]
    rfl

theorem Reads.seq {f : Fields (α → β)} {x : Fields α} {g : α → β} (hf : f.Reads fields g)
    (hx : x.Reads fields a) : (f <*> x).Reads fields (g a) where
  accepts entry hentry := (List.mem_append.1 hentry).elim (hf.accepts entry) (hx.accepts entry)
  build := by
    show (f.build _ >>= fun g => g <$> x.build _) = _
    rw [hf.build, hx.build]
    rfl

section Kinds

variable {s : String} {x? : Option String}

theorem Reads.requiredText (hv : Json.field? fields name = (some (.str s)).map Json.sorted) :
    (Fields.required name Decoder.text).Reads fields s := .required hv rfl

theorem Reads.defaultText {absent : String} (hv : Json.field? fields name = (some (.str s)).map Json.sorted) :
    (Fields.default name Decoder.text absent).Reads fields s :=
  .default hv (by rintro _ ⟨⟩; rfl) (by simp)

theorem Reads.defaultBool {b absent : Bool} (hv : Json.field? fields name = (some (.bool b)).map Json.sorted) :
    (Fields.default name Decoder.bool absent).Reads fields b :=
  .default hv (by rintro _ ⟨⟩; rfl) (by simp)

theorem Reads.optionalText (hv : Json.field? fields name = (x?.map .str).map Json.sorted) :
    (Fields.optional name Decoder.text).Reads fields x? := .optional hv fun _ _ => rfl

theorem Reads.nonEmptyText (hv : Json.field? fields name = (Json.nonEmptyText s).map Json.sorted) :
    (Fields.default name Decoder.text "").Reads fields s := by
  refine .default hv ?_ ?_
  · unfold Json.nonEmptyText
    split_ifs
    · rintro _ ⟨⟩
    · rintro _ ⟨⟩
      rfl
  · unfold Json.nonEmptyText
    split_ifs with hempty
    · exact fun _ => (String.isEmpty_iff.1 hempty).symm
    · rintro ⟨⟩

/-- A list that is left out where it is empty. -/
theorem Reads.nonEmptyItems {γ : Type} {d : Decoder γ} {write : γ → Json} {items : List γ}
    (hv : Json.field? fields name =
      (if items.isEmpty then none else some (.arr (items.map write))).map Json.sorted)
    (h : ∀ a ∈ items, d (write a).sorted = .ok a) :
    (Fields.default name (Decoder.list d) []).Reads fields items := by
  cases items with
  | nil => exact .default hv (by rintro _ ⟨⟩) fun _ => rfl
  | cons a rest =>
    refine .default hv ?_ (by rintro ⟨⟩)
    rintro _ ⟨⟩
    exact Decoder.list_sorted h

theorem Reads.texts {ss : List String}
    (hv : Json.field? fields name = (Json.nonEmptyTexts ss).map Json.sorted) :
    (Fields.default name (Decoder.list Decoder.text) []).Reads fields ss :=
  .nonEmptyItems hv fun _ _ => rfl

/-- A list that is written even where it is empty. -/
theorem Reads.items {γ : Type} {d : Decoder γ} {write : γ → Json} {items absent : List γ}
    (hv : Json.field? fields name = (some (.arr (items.map write))).map Json.sorted)
    (h : ∀ a ∈ items, d (write a).sorted = .ok a) :
    (Fields.default name (Decoder.list d) absent).Reads fields items := by
  refine .default hv ?_ (by simp)
  rintro _ ⟨⟩
  exact Decoder.list_sorted h

theorem Reads.requiredU32 {n : UInt32}
    (hv : Json.field? fields name = (some (.u32 n)).map Json.sorted) :
    (Fields.required name Decoder.u32).Reads fields n := .required hv (Decoder.u32_u32 n)

theorem Reads.optionalU32 {n? : Option UInt32}
    (hv : Json.field? fields name = (n?.map .u32).map Json.sorted) :
    (Fields.optional name Decoder.u32).Reads fields n? :=
  .optional hv fun n _ => Decoder.nullable_eq_ok (by rintro ⟨⟩) (Decoder.u32_u32 n)

theorem Reads.optionalU16 {n? : Option UInt16}
    (hv : Json.field? fields name = (n?.map fun n => .nat n.toNat).map Json.sorted) :
    (Fields.optional name Decoder.u16).Reads fields n? :=
  .optional hv fun n _ => Decoder.nullable_eq_ok (by rintro ⟨⟩) (Decoder.u16_nat n)

end Kinds

theorem firstFault_eq_none {f : Fields α} {l : JsonFields} {seen : List String} (hnodup : (l.map (·.1)).Nodup)
    (hseen : ∀ e ∈ l, e.1 ∉ seen) (h : ∀ e ∈ l, ∀ entry ∈ f.known, entry.1 = e.1 → entry.2 e.2 = none) :
    f.firstFault l seen = none := by
  induction l generalizing seen with
  | nil => rfl
  | cons e l ih =>
    obtain ⟨key, v⟩ := e
    obtain ⟨hkey, hnodup⟩ := List.nodup_cons.1 hnodup
    obtain ⟨hnew, hseen⟩ := List.forall_mem_cons.1 hseen
    obtain ⟨hv, h⟩ := List.forall_mem_cons.1 h
    rw [firstFault]
    cases hfind : f.known.find? (·.1 == key) with
    | none => exact ih hnodup hseen h
    | some entry =>
      have hname : entry.1 = key := by simpa using List.find?_some hfind
      have hrefuses : entry.2 v = none := hv entry (List.mem_of_find?_eq_some hfind) hname
      have hcontains : seen.contains key = false := by simpa using hnew
      simp only [hcontains, hrefuses]
      -- the name counts as seen from here on, but it does not occur again
      refine ih hnodup (fun e' he' => ?_) h
      rw [List.mem_cons, not_or]
      exact ⟨fun heq => hkey (List.mem_map.2 ⟨e', he', heq⟩), hseen e' he'⟩

theorem Reads.ofObject {f : Fields α} (h : f.Reads fields a) (hnodup : (fields.map (·.1)).Nodup) :
    f.ofObject fields = .ok a := by
  have hfault : f.firstFault fields [] = none :=
    firstFault_eq_none hnodup (by simp) fun e he entry hentry hname =>
      h.accepts entry hentry e.2 ((Json.field?_eq_some_iff hnodup).2 (hname ▸ he))
  rw [Fields.ofObject, hfault]
  exact h.build

end Fields

namespace Decoder

variable {α : Type} {specs : List (String × Option Json)} {f : Fields α} {a : α}

theorem record_eq_ok {fields : JsonFields} (name : String) (hnodup : (fields.map (·.1)).Nodup)
    (h : f.Reads fields a) : record name f (.obj fields) = .ok a := h.ofObject hnodup

theorem record_sorted (name : String) (hnodup : (specs.map (·.1)).Nodup)
    (h : ∀ fields extra, Json.Holds fields specs extra → f.Reads fields a) :
    record name f (Json.record specs).sorted = .ok a := by
  obtain ⟨fields, heq, hfields⟩ := Json.holds_record hnodup
  rw [heq]
  exact (h fields _ hfields).ofObject hfields.nodup

/-- A record that keeps further fields is read from what was written of it, and they are kept. -/
theorem extended_sorted (name : String) {extra : JsonFields} (hnodup : (specs.map (·.1)).Nodup)
    (hextra : Json.Further (specs.map (·.1)) extra) (hknown : f.names = specs.map (·.1))
    (h : ∀ fields extra, Json.Holds fields specs extra → f.Reads fields a) :
    extended name f (Json.obj (Json.present specs ++ extra)).sorted = .ok (a, extra) := by
  obtain ⟨fields, heq, hfields⟩ := Json.holds_sorted hnodup hextra
  have hknows : ∀ key, f.knows key = true ↔ key ∈ specs.map (·.1) := by
    intro key
    rw [← hknown, Fields.knows, Fields.names, List.any_eq_true, List.mem_map]
    simp
  have hrest := hfields.extra f.knows hknows
  rw [heq]
  show (f.ofObject fields >>= fun record => pure (record, fields.filter fun e => !f.knows e.1)) = _
  rw [(h fields _ hfields).ofObject hfields.nodup, hrest]
  rfl

end Decoder

end ProxyFleet
