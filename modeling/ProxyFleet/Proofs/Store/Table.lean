import ProxyFleet.Store.Table

/-!
# Tables: rows and ids

* `rows_insert`, `rows_modifyId`, `rows_eraseId` : the rows after each change;
* `has_insert`, `has_eraseId` : the ids that have a row after it;
* `eraseId_of_not_has`, `erase_none`, `erase_erase` : removing nothing, and removing twice;
* `map_select_modify` : the rows that meet a condition after a change;
* `Numbered` : ids are positive, increase from row to row and stay below the next one, which every
  change keeps (`Numbered.insert`, `Numbered.modify`, `Numbered.erase`);
* `Numbered.eq_of_id_eq`, `Numbered.erase_select` : in such a table a row is known by its id;
* `exists_of_bind_eq_ok`, `exists_mapM_eq_ok` : reading in steps, and reading many rows;
* `find?_key_eq_some` : finding by a key that no two elements share.
-/

namespace ProxyFleet

set_option autoImplicit false

/-- What comes after a first step was reached through it. -/
theorem exists_of_bind_eq_ok {α β ε : Type} {x : Except ε α} {f : α → Except ε β} {b : β}
    (h : x >>= f = .ok b) : ∃ a, x = .ok a ∧ f a = .ok b := by
  cases x with
  | error e => cases h
  | ok a => exact ⟨a, rfl, h⟩

theorem eq_ok_of_toOption {α ε : Type} {x : Except ε α} {a : α} (h : x.toOption = some a) : x = .ok a := by
  cases x with
  | error e => cases h
  | ok b =>
    cases h
    rfl

/-- If each row can be read, and a key of the row is that of what is read, then all can be read, and
the keys are the same. -/
theorem exists_mapM_eq_ok {α β ε κ : Type} {f : α → Except ε β} {k : α → κ} {k' : β → κ} {l : List α}
    (h : ∀ a ∈ l, ∃ b, f a = .ok b ∧ k a = k' b) : ∃ bs, l.mapM f = .ok bs ∧ bs.map k' = l.map k := by
  induction l with
  | nil => exact ⟨[], rfl, rfl⟩
  | cons a l ih =>
    obtain ⟨b, hb, hk⟩ := h a (by simp)
    obtain ⟨bs, hbs, hks⟩ := ih fun x hx => h x (by simp [hx])
    refine ⟨b :: bs, ?_, ?_⟩
    · rw [List.mapM_cons, hb, hbs]
      rfl
    · rw [List.map_cons, List.map_cons, hk, hks]

/-- Keys that are pairwise different are so wherever they occur in the same order. -/
theorem pairwise_ne_of_map_eq {α β κ : Type} {as : List α} {bs : List β} {f : α → κ} {g : β → κ}
    (h : as.map f = bs.map g) (hb : bs.Pairwise fun a b => g a ≠ g b) :
    as.Pairwise fun a b => f a ≠ f b := by
  have hmap := List.pairwise_map.2 hb
  rw [← h] at hmap
  exact List.pairwise_map.1 hmap

/-- Where no two elements have one key, finding a key is finding any element that has it. -/
theorem find?_key_eq_some {α κ : Type} [BEq κ] [LawfulBEq κ] {key : α → κ} {l : List α}
    (h : l.Pairwise fun a b => key a ≠ key b) {k : κ} {a : α} :
    l.find? (key · == k) = some a ↔ a ∈ l ∧ key a = k := by
  constructor
  · intro hf
    exact ⟨List.mem_of_find?_eq_some hf, by simpa using List.find?_some hf⟩
  · rintro ⟨ha, rfl⟩
    induction l with
    | nil => simp at ha
    | cons b rest ih =>
      obtain ⟨hb, hrest⟩ := List.pairwise_cons.1 h
      rcases List.mem_cons.1 ha with rfl | ha
      · simp
      · simpa [List.find?_cons, hb a ha] using ih hrest ha

namespace Table

variable {ρ : Type}

@[simp] theorem rows_insert (t : Table ρ) (row : ρ) : (t.insert row).rows = t.rows ++ [(t.nextId, row)] := rfl

@[simp] theorem rows_erase (t : Table ρ) (p : Int → ρ → Bool) :
    (t.erase p).rows = t.rows.filter fun e => !p e.1 e.2 := rfl

@[simp] theorem rows_modify (t : Table ρ) (p : Int → ρ → Bool) (f : ρ → ρ) :
    (t.modify p f).rows = t.rows.map fun e => if p e.1 e.2 then (e.1, f e.2) else (e.1, e.2) := rfl

@[simp] theorem rows_eraseId (t : Table ρ) (id : Int) :
    (t.eraseId id).rows = t.rows.filter fun e => !(e.1 == id) := rfl

theorem rows_modifyId (t : Table ρ) (id : Int) (f : ρ → ρ) :
    (t.modifyId id f).rows = t.rows.map fun e => if e.1 = id then (e.1, f e.2) else e := by
  rw [modifyId, rows_modify]
  refine List.map_congr_left fun e _ => ?_
  by_cases h : e.1 = id
  · simp [h]
  · simp [h]

theorem mem_rows_of_get? {t : Table ρ} {id : Int} {row : ρ} (h : t.get? id = some row) :
    (id, row) ∈ t.rows := by
  obtain ⟨e, he, rfl⟩ := Option.map_eq_some_iff.1 h
  have hid : e.1 = id := by simpa using List.find?_some he
  exact hid ▸ List.mem_of_find?_eq_some he

theorem has_insert (t : Table ρ) (row : ρ) (id : Int) :
    (t.insert row).has id = (t.has id || t.nextId == id) := by
  simp [has]

theorem has_eraseId (t : Table ρ) (id id' : Int) :
    (t.eraseId id).has id' = (t.has id' && !(id' == id)) := by
  rw [Bool.eq_iff_iff]
  simp only [has, rows_eraseId, List.any_eq_true, List.mem_filter, Bool.not_eq_true', beq_eq_false_iff_ne, beq_iff_eq,
    Bool.and_eq_true]
  constructor
  · rintro ⟨e, ⟨he, hne⟩, rfl⟩
    exact ⟨⟨e, he, rfl⟩, hne⟩
  · rintro ⟨⟨e, he, rfl⟩, hne⟩
    exact ⟨e, ⟨he, hne⟩, rfl⟩

theorem eraseId_of_not_has {t : Table ρ} {id : Int} (h : ¬t.has id = true) : t.eraseId id = t := by
  have hkept : t.rows.filter (fun e => !(e.1 == id)) = t.rows := by
    rw [List.filter_eq_self]
    intro e he
    have hne : e.1 ≠ id := fun hid => h (List.any_eq_true.2 ⟨e, he, beq_iff_eq.2 hid⟩)
    simpa using hne
  exact congrArg (fun rows => { t with rows }) hkept

theorem erase_none (t : Table ρ) : t.erase (fun _ _ => false) = t := by
  cases t
  simp [erase]

theorem erase_erase (t : Table ρ) (p q : Int → ρ → Bool) :
    (t.erase p).erase q = t.erase fun id row => q id row || p id row := by
  simp [erase, List.filter_filter]

/-- The rows that meet a condition after a change that does not matter to it. -/
theorem map_select_modify (t : Table ρ) (p q : ρ → Bool) {f : ρ → ρ} (hf : ∀ r, q (f r) = q r) :
    ((t.modify (fun _ r => p r) f).select q).map (·.2) =
      ((t.select q).map (·.2)).map fun r => if p r then f r else r := by
  rw [select, select, rows_modify]
  induction t.rows with
  | nil => rfl
  | cons e rows ih =>
    rw [List.map_cons, List.filter_cons, List.filter_cons]
    cases hp : p e.2 with
    | true => cases hq : q e.2 with
      | true => simp [hp, hq, hf, ih]
      | false => simp [hq, hf, ih]
    | false => cases hq : q e.2 with
      | true => simp [hp, hq, ih]
      | false => simp [hq, ih]

/-- Ids are positive, increase from row to row, and stay below the one that the next row gets. -/
structure Numbered (t : Table ρ) : Prop where
  pos : ∀ e ∈ t.rows, 1 ≤ e.1
  below : ∀ e ∈ t.rows, e.1 < t.nextId
  ascending : t.rows.Pairwise (·.1 < ·.1)
  next_pos : 1 ≤ t.nextId

namespace Numbered

theorem empty : Numbered ({} : Table ρ) :=
  ⟨by simp, by simp, List.Pairwise.nil, Int.le_refl 1⟩

theorem insert {t : Table ρ} (h : t.Numbered) (row : ρ) : (t.insert row).Numbered where
  pos e he := by
    rcases List.mem_append.1 he with he | he
    · exact h.pos e he
    · rw [List.mem_singleton.1 he]
      exact h.next_pos
  below e he := by
    have hn : (t.insert row).nextId = t.nextId + 1 := rfl
    rcases List.mem_append.1 he with he | he
    · have := h.below e he
      omega
    · rw [List.mem_singleton.1 he, hn]
      omega
  ascending := by
    refine List.pairwise_append.2 ⟨h.ascending, by simp, fun e he f hf => ?_⟩
    rw [List.mem_singleton.1 hf]
    exact h.below e he
  next_pos := by
    have hn : (t.insert row).nextId = t.nextId + 1 := rfl
    have := h.next_pos
    omega

theorem erase {t : Table ρ} (h : t.Numbered) (p : Int → ρ → Bool) : (t.erase p).Numbered where
  pos e he := h.pos e (List.mem_filter.1 he).1
  below e he := h.below e (List.mem_filter.1 he).1
  ascending := h.ascending.filter _
  next_pos := h.next_pos

theorem eraseId {t : Table ρ} (h : t.Numbered) (id : Int) : (t.eraseId id).Numbered := h.erase _

/-- A row that was inserted and removed again leaves the rows as they were. -/
theorem rows_eraseId_insert {t : Table ρ} (h : t.Numbered) (row : ρ) :
    ((t.insert row).eraseId t.nextId).rows = t.rows := by
  have hold : t.rows.filter (fun e => !(e.1 == t.nextId)) = t.rows := by
    rw [List.filter_eq_self]
    intro e he
    have := h.below e he
    simp only [Bool.not_eq_true', beq_eq_false_iff_ne]
    omega
  rw [rows_eraseId, rows_insert, List.filter_append, hold]
  simp

theorem modify {t : Table ρ} (h : t.Numbered) (p : Int → ρ → Bool) (f : ρ → ρ) :
    (t.modify p f).Numbered := by
  have hid : ∀ e : Int × ρ, (if p e.1 e.2 then (e.1, f e.2) else (e.1, e.2)).1 = e.1 := by
    intro e
    split
    · rfl
    · rfl
  refine ⟨fun e he => ?_, fun e he => ?_, ?_, h.next_pos⟩
  · obtain ⟨e', he', rfl⟩ := List.mem_map.1 he
    rw [hid]
    exact h.pos e' he'
  · obtain ⟨e', he', rfl⟩ := List.mem_map.1 he
    rw [hid]
    exact h.below e' he'
  · rw [rows_modify, List.pairwise_map]
    refine h.ascending.imp fun {e g} hlt => ?_
    rwa [hid, hid]

theorem modifyId {t : Table ρ} (h : t.Numbered) (id : Int) (f : ρ → ρ) : (t.modifyId id f).Numbered :=
  h.modify _ f

theorem eq_of_id_eq {t : Table ρ} (h : t.Numbered) {e g : Int × ρ} (he : e ∈ t.rows) (hg : g ∈ t.rows)
    (hid : e.1 = g.1) : e = g := by
  refine List.Pairwise.forall_of_forall_of_flip (R := fun a b => a.1 = b.1 → a = b) (fun _ _ _ => rfl)
    (h.ascending.imp fun hlt heq => ?_) (h.ascending.imp fun hlt heq => ?_) he hg hid
  · omega
  · omega

/-- Rows that are removed by the ids of a selection are those that were selected. -/
theorem erase_select {t : Table ρ} (h : t.Numbered) (p : ρ → Bool) :
    t.erase (fun id _ => ((t.select p).map (·.1)).contains id) = t.erase fun _ row => p row := by
  have hsame : ∀ e ∈ t.rows, ((t.select p).map (·.1)).contains e.1 = p e.2 := by
    intro e he
    rw [Bool.eq_iff_iff, List.contains_iff_mem, List.mem_map]
    constructor
    · rintro ⟨g, hg, hid⟩
      obtain ⟨hg, hp⟩ := List.mem_filter.1 hg
      exact h.eq_of_id_eq hg he hid ▸ hp
    · exact fun hp => ⟨e, List.mem_filter.2 ⟨he, hp⟩, rfl⟩
  exact congrArg (fun rows => { t with rows }) (List.filter_congr fun e he => congrArg not (hsame e he))

/-- A row is known by its id, also where it is looked up. -/
theorem get?_eq_some_iff {t : Table ρ} (h : t.Numbered) {id : Int} {row : ρ} :
    t.get? id = some row ↔ (id, row) ∈ t.rows := by
  have hkeys : t.rows.Pairwise fun e g => e.1 ≠ g.1 := h.ascending.imp fun hlt => Int.ne_of_lt hlt
  rw [get?, Option.map_eq_some_iff]
  simp only [find?_key_eq_some hkeys]
  constructor
  · rintro ⟨e, ⟨he, rfl⟩, rfl⟩
    exact he
  · exact fun he => ⟨_, ⟨he, rfl⟩, rfl⟩

theorem get?_insert_self {t : Table ρ} (h : t.Numbered) (row : ρ) : (t.insert row).get? t.nextId = some row :=
  (h.insert row).get?_eq_some_iff.2 (List.mem_append_right _ (List.mem_singleton.2 rfl))

theorem get?_insert_of_some {t : Table ρ} (h : t.Numbered) {id : Int} {row : ρ} (hrow : t.get? id = some row)
    (new : ρ) : (t.insert new).get? id = some row :=
  (h.insert new).get?_eq_some_iff.2 (List.mem_append_left _ (h.get?_eq_some_iff.1 hrow))

theorem get?_modifyId_self {t : Table ρ} (h : t.Numbered) {id : Int} {row : ρ} (hrow : t.get? id = some row)
    (f : ρ → ρ) : (t.modifyId id f).get? id = some (f row) := by
  rw [(h.modifyId id f).get?_eq_some_iff, rows_modifyId, List.mem_map]
  exact ⟨_, h.get?_eq_some_iff.1 hrow, if_pos rfl⟩

theorem get?_modifyId_of_ne {t : Table ρ} (h : t.Numbered) {id id' : Int} (hne : id ≠ id') {row : ρ}
    (hrow : t.get? id = some row) (f : ρ → ρ) : (t.modifyId id' f).get? id = some row := by
  rw [(h.modifyId id' f).get?_eq_some_iff, rows_modifyId, List.mem_map]
  exact ⟨_, h.get?_eq_some_iff.1 hrow, if_neg hne⟩

theorem get?_eraseId_of_ne {t : Table ρ} (h : t.Numbered) {id id' : Int} (hne : id ≠ id') {row : ρ}
    (hrow : t.get? id = some row) : (t.eraseId id').get? id = some row := by
  rw [(h.eraseId id').get?_eq_some_iff, rows_eraseId, List.mem_filter]
  exact ⟨h.get?_eq_some_iff.1 hrow, by simpa using hne⟩

end Numbered

end Table

end ProxyFleet
