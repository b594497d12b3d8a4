import Mathlib.Data.List.Basic
import Mathlib.Tactic.SplitIfs
import ProxyFleet.Proofs.Json.Number

/-!
# JSON text is read as it was written

What is read of a value's text is the value with what is read of its numbers, whatever may follow a value
in JSON. It is the value itself if its numbers are read as they are written. This goes for all values that
nest no deeper than the reader goes.

* `Json.readText?_quoted` : a quoted text;
* `Json.reread?` : what is read of a value;
* `Json.readItems?_joined`, `Json.readFields?_joined` : a list with commas between its elements, read
  element by element;
* `Json.Definite`, `Json.written_pretty`, `Json.written_compact` : whole values;
* `Json.Legible`, `Json.Legible.definite` : values that are read as they are written;
* `Json.Faithful`, `Json.Legible.faithful` : their texts.
-/

namespace ProxyFleet

set_option autoImplicit false

namespace Json

/-! ## Texts -/

theorem hexValue?_hexDigit (n : Nat) : hexValue? (hexDigit n) = some (n % 16) := by
  have hall : ∀ m < 16, hexValue? (Nat.digitChar m) = some m := by decide
  exact hall _ (Nat.mod_lt n (by decide))

theorem readEscapedCode?_control {c : Char} (h : c.toNat < 32) (rest : List Char) :
    readEscapedCode? ('0' :: '0' :: hexDigit (c.toNat / 16) :: hexDigit c.toNat :: rest) = some (c, rest) := by
  have hcode : (((0 * 16 + 0) * 16 + c.toNat / 16 % 16) * 16 + c.toNat % 16) = c.toNat := by omega
  have hzero : hexValue? '0' = some 0 := rfl
  have hread : readHex4? ('0' :: '0' :: hexDigit (c.toNat / 16) :: hexDigit c.toNat :: rest) =
      some (c.toNat, rest) := by
    simp only [readHex4?, hexValue?_hexDigit, hzero, hcode]
  rw [readEscapedCode?, hread]
  dsimp only
  rw [if_pos (.inl (by omega)), Char.ofNat_toNat]

/-- The text is read as the character, whatever follows it. -/
def Spells (c : Char) (text : List Char) : Prop := ∀ rest, readChar? (text ++ rest) = some (c, rest)

theorem spells_escapeChar (c : Char) : Spells c (escapeChar c) := by
  unfold escapeChar
  -- a character that another one stands for is read back by computation
  refine iteInduction (motive := Spells c) (by rintro rfl _; rfl) fun _ => ?_
  refine iteInduction (motive := Spells c) (by rintro rfl _; rfl) fun hback => ?_
  iterate 5 refine iteInduction (motive := Spells c) (by rintro rfl _; rfl) fun _ => ?_
  refine iteInduction (motive := Spells c) readEscapedCode?_control fun hcontrol rest => ?_
  simp [readChar?, hback, hcontrol]

/-- No character is written so that a quote comes first. -/
theorem escapeChar_eq_cons (c : Char) : ∃ d cs, escapeChar c = d :: cs ∧ d ≠ '"' := by
  have hslash : ∀ cs, ∃ d ds, '\\' :: cs = d :: ds ∧ d ≠ '"' := fun cs => ⟨'\\', cs, rfl, by decide⟩
  unfold escapeChar
  iterate 8
    refine iteInduction (motive := fun text => ∃ d cs, text = d :: cs ∧ d ≠ '"') (fun _ => hslash _) fun _ => ?_
  exact ⟨c, [], rfl, ‹¬c = '"'›⟩

theorem readQuoted?_flatMap (cs : List Char) (rest : List Char) (fuel : Nat) (h : cs.length < fuel) :
    readQuoted? fuel (cs.flatMap escapeChar ++ '"' :: rest) = some (cs, rest) := by
  induction cs generalizing fuel with
  | nil =>
    obtain ⟨fuel, rfl⟩ := Nat.exists_eq_add_of_lt h
    rfl
  | cons c cs ih =>
    obtain ⟨fuel, rfl⟩ : ∃ k, fuel = k + 1 := ⟨fuel - 1, by omega⟩
    have hread := spells_escapeChar c (cs.flatMap escapeChar ++ '"' :: rest)
    obtain ⟨d, ds, hc, hd⟩ := escapeChar_eq_cons c
    have hrest := ih fuel (by simpa using h)
    rw [List.flatMap_cons, List.append_assoc, hc, List.cons_append]
    rw [hc, List.cons_append] at hread
    unfold readQuoted?
    split
    · next heq => exact absurd (List.cons.inj heq).1 hd
    · rw [hread]
      dsimp only
      rw [hrest, Option.map_some]

theorem length_le_length_flatMap_escapeChar (cs : List Char) : cs.length ≤ (cs.flatMap escapeChar).length := by
  induction cs with
  | nil => exact Nat.le_refl 0
  | cons c cs ih =>
    obtain ⟨d, ds, hc, -⟩ := escapeChar_eq_cons c
    rw [List.flatMap_cons, List.length_append, hc, List.length_cons, List.length_cons]
    omega

/-- A quoted text is read after its opening quote. -/
theorem readText?_quoted (s : String) (rest : List Char) :
    readText? (s.toList.flatMap escapeChar ++ '"' :: rest) = some (s, rest) := by
  -- the fuel is the length of what is left, and each character takes one of it at least
  have hlength := length_le_length_flatMap_escapeChar s.toList
  rw [readText?, readQuoted?_flatMap s.toList rest _ (by rw [List.length_append]; omega), Option.map_some]
  dsimp only
  rw [String.ofList_toList]

/-! ## What is read -/

mutual

/-- What is read of the text of a value: the value with what is read of its numbers, if that is something. -/
def reread? : Json → Option Json
  | .num n => n.reread?.map .num
  | .arr items => (rereadItems? items).map .arr
  | .obj fields => (rereadFields? fields).map .obj
  | .null => some .null
  | .bool b => some (.bool b)
  | .str s => some (.str s)

/-- What is read of each item. -/
def rereadItems? : List Json → Option (List Json)
  | [] => some []
  | v :: rest => (reread? v).bind fun w => (rereadItems? rest).map (w :: ·)

/-- What is read of each field's value. -/
def rereadFields? : JsonFields → Option JsonFields
  | [] => some []
  | (k, v) :: rest => (reread? v).bind fun w => (rereadFields? rest).map ((k, w) :: ·)

end

/-! ## Lists with commas -/

section Lists

variable {α : Type} {value : List Char → Option (Json × List Char)} {lead tail : List Char}

/-- Elements behind blanks, with commas between them. -/
def joined (lead : List Char) (write : α → List Char) : List α → List Char
  | [] => []
  | [a] => lead ++ write a
  | a :: b :: rest => lead ++ write a ++ ',' :: joined lead write (b :: rest)

/-- Each element takes a character at least. -/
theorem length_le_length_joined (lead : List Char) {write : α → List Char} {items : List α}
    (h : ∀ a ∈ items, ∃ c cs, write a = c :: cs ∧ Opens c) (rest : List Char) :
    items.length ≤ (joined lead write items ++ rest).length := by
  induction items with
  | nil => exact Nat.zero_le _
  | cons a items ih =>
    obtain ⟨⟨c, cs, hwrite, -⟩, hitems⟩ := List.forall_mem_cons.1 h
    have hmore := ih hitems
    cases items with
    | nil =>
      simp only [joined, hwrite, List.length_append, List.length_cons, List.length_nil]
      omega
    | cons b items =>
      simp only [joined, hwrite, List.length_append, List.length_cons] at hmore ⊢
      omega

/-- A list with elements goes on, behind blanks, as its first element starts. -/
theorem skipBlank_joined {write : α → List Char} (hlead : ∀ c ∈ lead, Blank c) {items : List α} (hne : items ≠ [])
    (h : ∀ a ∈ items, ∃ c cs, write a = c :: cs ∧ Opens c) (rest : List Char) :
    ∃ c cs, skipBlank (joined lead write items ++ rest) = c :: cs ∧ Opens c := by
  obtain ⟨a, items, rfl⟩ := List.exists_cons_of_ne_nil hne
  obtain ⟨c, cs, hwrite, hc⟩ := h a List.mem_cons_self
  have htext : ∃ more, joined lead write (a :: items) ++ rest = lead ++ c :: (cs ++ more) := by
    cases items with
    | nil => exact ⟨rest, by simp [joined, hwrite]⟩
    | cons b items => exact ⟨',' :: (joined lead write (b :: items) ++ rest), by simp [joined, hwrite]⟩
  obtain ⟨more, htext⟩ := htext
  exact ⟨c, cs ++ more, by rw [htext, skipBlank_append hlead, skipBlank_cons hc.1], hc⟩

/-- The text starts as a value does, and the same is read of it, whatever ends it. -/
structure Written (value : List Char → Option (Json × List Char)) (text : List Char) (v? : Option Json) : Prop where
  opens : ∃ c cs, text = c :: cs ∧ Opens c
  read : ∀ rest, Ends rest → value (text ++ rest) = v?.map (·, rest)

theorem Written.skipBlank {text : List Char} {v? : Option Json} (h : Written value text v?) (rest : List Char) :
    skipBlank (text ++ rest) = text ++ rest := by
  obtain ⟨c, cs, rfl, hc⟩ := h.opens
  exact skipBlank_cons hc.1 _

theorem ends_comma (rest : List Char) : Ends (',' :: rest) := by
  rintro c ⟨⟩
  exact .inr (.inl rfl)

theorem ends_closing {close : Char} (hclose : close = ']' ∨ close = '}') (htail : ∀ c ∈ tail, Blank c)
    (after : List Char) : Ends (tail ++ close :: after) := by
  refine ends_append htail ?_
  rintro c ⟨⟩
  exact .inr (.inr hclose)

theorem readItems?_joined {write : Json → List Char} (hlead : ∀ c ∈ lead, Blank c) (htail : ∀ c ∈ tail, Blank c)
    {items : List Json} (hne : items ≠ []) (hitems : ∀ v ∈ items, Written value (write v) v.reread?)
    (after : List Char) (fuel : Nat) (hfuel : items.length ≤ fuel) :
    readItems? value fuel (joined lead write items ++ (tail ++ ']' :: after)) =
      (rereadItems? items).map (·, after) := by
  induction items generalizing fuel with
  | nil => exact absurd rfl hne
  | cons v items ih =>
    obtain ⟨hv, hrest⟩ := List.forall_mem_cons.1 hitems
    obtain ⟨fuel, rfl⟩ : ∃ k, fuel = k + 1 := ⟨fuel - 1, by rw [List.length_cons] at hfuel; omega⟩
    cases items with
    | nil =>
      -- the last item is followed by the bracket, every other one by a comma
      have hend : Ends (tail ++ ']' :: after) := ends_closing (.inl rfl) htail after
      have hblank : skipBlank (tail ++ ']' :: after) = ']' :: after :=
        (skipBlank_append htail _).trans (skipBlank_cons (by simp [Blank]) _)
      rw [joined, List.append_assoc, readItems?, skipBlank_append hlead, hv.skipBlank, hv.read _ hend, rereadItems?,
        rereadItems?]
      cases v.reread? with
      | none => rfl
      | some w =>
        simp only [Option.map_some, Option.bind_some, hblank]
    | cons w rest =>
      have htext : joined lead write (v :: w :: rest) ++ (tail ++ ']' :: after) =
          lead ++ (write v ++ ',' :: (joined lead write (w :: rest) ++ (tail ++ ']' :: after))) := by
        simp [joined]
      have hblank : ∀ rest, skipBlank (',' :: rest) = ',' :: rest := skipBlank_cons (by simp [Blank])
      have hmore := ih (List.cons_ne_nil w rest) hrest fuel (by simpa using hfuel)
      rw [htext, readItems?, skipBlank_append hlead, hv.skipBlank, hv.read _ (ends_comma _), rereadItems?]
      cases v.reread? with
      | none => rfl
      | some x =>
        simp only [Option.map_some, Option.bind_some, hblank, hmore, Option.map_map]
        rfl

/-- A field, with blanks behind its colon. -/
def fieldChars (gap : List Char) (write : Json → List Char) (f : String × Json) : List Char :=
  quotedChars f.1 ++ ':' :: (gap ++ write f.2)

theorem readField?_fieldChars {write : Json → List Char} {gap : List Char} (hlead : ∀ c ∈ lead, Blank c)
    (hgap : ∀ c ∈ gap, Blank c) {f : String × Json} (hf : Written value (write f.2) f.2.reread?) {rest : List Char}
    (hrest : Ends rest) :
    readField? value (lead ++ (fieldChars gap write f ++ rest)) =
      f.2.reread?.map fun w => ((f.1, w), skipBlank rest) := by
  have htext : fieldChars gap write f ++ rest =
      '"' :: (f.1.toList.flatMap escapeChar ++ '"' :: ':' :: (gap ++ (write f.2 ++ rest))) := by
    simp [fieldChars, quotedChars]
  have hquote : ¬Blank '"' := by simp [Blank]
  have hcolon : ¬Blank ':' := by simp [Blank]
  have hvalue : skipBlank (gap ++ (write f.2 ++ rest)) = write f.2 ++ rest :=
    (skipBlank_append hgap _).trans (hf.skipBlank rest)
  rw [readField?, skipBlank_append hlead, htext, skipBlank_cons hquote]
  simp only [readText?_quoted, skipBlank_cons hcolon, hvalue, hf.read rest hrest, Option.map_map]
  rfl

theorem readFields?_joined {write : Json → List Char} {gap : List Char} (hlead : ∀ c ∈ lead, Blank c)
    (hgap : ∀ c ∈ gap, Blank c) (htail : ∀ c ∈ tail, Blank c) {fields : JsonFields} (hne : fields ≠ [])
    (hfields : ∀ f ∈ fields, Written value (write f.2) f.2.reread?)
    (after : List Char) (fuel : Nat) (hfuel : fields.length ≤ fuel) :
    readFields? value fuel (joined lead (fieldChars gap write) fields ++ (tail ++ '}' :: after)) =
      (rereadFields? fields).map (·, after) := by
  induction fields generalizing fuel with
  | nil => exact absurd rfl hne
  | cons f fields ih =>
    obtain ⟨hf, hrest⟩ := List.forall_mem_cons.1 hfields
    obtain ⟨fuel, rfl⟩ : ∃ k, fuel = k + 1 := ⟨fuel - 1, by rw [List.length_cons] at hfuel; omega⟩
    cases fields with
    | nil =>
      have hend : Ends (tail ++ '}' :: after) := ends_closing (.inr rfl) htail after
      have hblank : skipBlank (tail ++ '}' :: after) = '}' :: after :=
        (skipBlank_append htail _).trans (skipBlank_cons (by simp [Blank]) _)
      rw [joined, List.append_assoc, readFields?, readField?_fieldChars hlead hgap hf hend, hblank, rereadFields?,
        rereadFields?]
      cases f.2.reread? with
      | _ => rfl
    | cons g rest =>
      have htext : joined lead (fieldChars gap write) (f :: g :: rest) ++ (tail ++ '}' :: after) =
          lead ++ (fieldChars gap write f ++
            ',' :: (joined lead (fieldChars gap write) (g :: rest) ++ (tail ++ '}' :: after))) := by
        simp [joined]
      have hblank : ∀ rest, skipBlank (',' :: rest) = ',' :: rest := skipBlank_cons (by simp [Blank])
      have hmore := ih (List.cons_ne_nil g rest) hrest fuel (by simpa using hfuel)
      rw [htext, readFields?, readField?_fieldChars hlead hgap hf (ends_comma _), hblank, rereadFields?]
      cases f.2.reread? with
      | none => rfl
      | some w =>
        simp only [Option.map_some, Option.bind_some, hmore, Option.map_map]
        rfl

theorem opens_fieldChars (gap : List Char) (write : Json → List Char) (f : String × Json) :
    ∃ c cs, fieldChars gap write f = c :: cs ∧ Opens c :=
  ⟨'"', _, rfl, by simp [Opens, Blank]⟩

theorem readValue?_array {depth : Nat} {write : Json → List Char} (hlead : ∀ c ∈ lead, Blank c)
    (htail : ∀ c ∈ tail, Blank c) {items : List Json} (hne : items ≠ [])
    (hitems : ∀ v ∈ items, Written (readValue? depth) (write v) v.reread?) (after : List Char) :
    readValue? (depth + 1) ('[' :: (joined lead write items ++ (tail ++ ']' :: after))) =
      (reread? (.arr items)).map (·, after) := by
  have hopens : ∀ v ∈ items, ∃ c cs, write v = c :: cs ∧ Opens c := fun v hv => (hitems v hv).opens
  obtain ⟨c, cs, hskip, hc⟩ := skipBlank_joined hlead hne hopens (tail ++ ']' :: after)
  have hfuel := length_le_length_joined lead hopens (tail ++ ']' :: after)
  simp only [readValue?, hskip]
  split
  · next heq => exact absurd (List.cons.inj heq).1 hc.2.1
  · rw [readItems?_joined hlead htail hne hitems after _ hfuel, reread?, Option.map_map, Option.map_map]
    rfl

theorem readValue?_object {depth : Nat} {write : Json → List Char} {gap : List Char} (hlead : ∀ c ∈ lead, Blank c)
    (hgap : ∀ c ∈ gap, Blank c) (htail : ∀ c ∈ tail, Blank c) {fields : JsonFields} (hne : fields ≠ [])
    (hfields : ∀ f ∈ fields, Written (readValue? depth) (write f.2) f.2.reread?) (after : List Char) :
    readValue? (depth + 1) ('{' :: (joined lead (fieldChars gap write) fields ++ (tail ++ '}' :: after))) =
      (reread? (.obj fields)).map (·, after) := by
  have hopens : ∀ f ∈ fields, ∃ c cs, fieldChars gap write f = c :: cs ∧ Opens c :=
    fun f _ => opens_fieldChars gap write f
  obtain ⟨c, cs, hskip, hc⟩ := skipBlank_joined hlead hne hopens (tail ++ '}' :: after)
  have hfuel := length_le_length_joined lead hopens (tail ++ '}' :: after)
  simp only [readValue?, hskip]
  split
  · next heq => exact absurd (List.cons.inj heq).1 hc.2.2
  · rw [readFields?_joined hlead hgap htail hne hfields after _ hfuel, reread?, Option.map_map, Option.map_map]
    rfl

theorem written_items {depth : Nat} {write : Json → List Char} (hlead : ∀ c ∈ lead, Blank c)
    (htail : ∀ c ∈ tail, Blank c) {items : List Json} (hne : items ≠ [])
    (h : ∀ v ∈ items, Written (readValue? depth) (write v) v.reread?) :
    Written (readValue? (depth + 1)) ('[' :: (joined lead write items ++ (tail ++ [']']))) (reread? (.arr items)) := by
  refine ⟨⟨'[', _, rfl, by simp [Opens, Blank]⟩, fun rest _ => ?_⟩
  have htext : '[' :: (joined lead write items ++ (tail ++ [']'])) ++ rest =
      '[' :: (joined lead write items ++ (tail ++ ']' :: rest)) := by simp
  rw [htext, readValue?_array hlead htail hne h]

theorem written_fields {depth : Nat} {write : Json → List Char} {gap : List Char} (hlead : ∀ c ∈ lead, Blank c)
    (hgap : ∀ c ∈ gap, Blank c) (htail : ∀ c ∈ tail, Blank c) {fields : JsonFields} (hne : fields ≠ [])
    (h : ∀ f ∈ fields, Written (readValue? depth) (write f.2) f.2.reread?) :
    Written (readValue? (depth + 1)) ('{' :: (joined lead (fieldChars gap write) fields ++ (tail ++ ['}'])))
      (reread? (.obj fields)) := by
  refine ⟨⟨'{', _, rfl, by simp [Opens, Blank]⟩, fun rest _ => ?_⟩
  have htext : '{' :: (joined lead (fieldChars gap write) fields ++ (tail ++ ['}'])) ++ rest =
      '{' :: (joined lead (fieldChars gap write) fields ++ (tail ++ '}' :: rest)) := by simp
  rw [htext, readValue?_object hlead hgap htail hne h]

end Lists

/-! ## Values -/

/-- The value nests at most `depth` arrays and objects, and its numbers are read as they are written. -/
def Legible : Nat → Json → Prop
  | _, .null | _, .bool _ | _, .str _ => True
  | _, .num n => n.Legible
  | 0, .arr _ | 0, .obj _ => False
  | depth + 1, .arr items => ∀ v ∈ items, Legible depth v
  | depth + 1, .obj fields => ∀ f ∈ fields, Legible depth f.2

theorem Legible.mono {depth depth' : Nat} {v : Json} (h : Legible depth v) (hle : depth ≤ depth') :
    Legible depth' v := by
  induction depth generalizing depth' v with
  | zero =>
    cases v with
    | arr items | obj fields => exact absurd h id
    | _ =>
      cases depth' with
      | _ => exact h
  | succ depth ih =>
    obtain ⟨depth', rfl⟩ := Nat.exists_eq_add_of_le' (Nat.one_le_of_lt hle)
    have hle := Nat.le_of_succ_le_succ hle
    cases v with
    | arr items => exact fun v hv => ih (h v hv) hle
    | obj fields => exact fun f hf => ih (h f hf) hle
    | _ => exact h

/-- The value nests at most `depth` arrays and objects, and the same is read of its numbers, whatever follows. -/
def Definite : Nat → Json → Prop
  | _, .null | _, .bool _ | _, .str _ => True
  | _, .num n => n.Definite
  | 0, .arr _ | 0, .obj _ => False
  | depth + 1, .arr items => ∀ v ∈ items, Definite depth v
  | depth + 1, .obj fields => ∀ f ∈ fields, Definite depth f.2

theorem definite_int (i : Int) (depth : Nat) : Definite depth (int i) := by
  cases depth with
  | _ => exact (JsonNumber.definite_int i).1

theorem definite_float (x : Binary64) (depth : Nat) : Definite depth (float x) := by
  unfold float
  split_ifs with h
  · cases depth with
    | _ => exact (JsonNumber.definite_float h).1
  · cases depth with
    | _ => trivial

theorem rereadItems?_eq_some {items : List Json} (h : ∀ v ∈ items, v.reread? = some v) :
    rereadItems? items = some items := by
  induction items with
  | nil => rfl
  | cons v items ih =>
    obtain ⟨hv, hitems⟩ := List.forall_mem_cons.1 h
    rw [rereadItems?, hv, ih hitems]
    rfl

theorem rereadFields?_eq_some {fields : JsonFields} (h : ∀ f ∈ fields, f.2.reread? = some f.2) :
    rereadFields? fields = some fields := by
  induction fields with
  | nil => rfl
  | cons f fields ih =>
    obtain ⟨hf, hfields⟩ := List.forall_mem_cons.1 h
    rw [rereadFields?, hf, ih hfields]
    rfl

theorem definite_num {n : JsonNumber} (h : n.Legible) : n.Definite ∧ (num n).reread? = some (.num n) := by
  obtain ⟨hdefinite, hreread⟩ := JsonNumber.legible_iff.1 h
  exact ⟨hdefinite, by rw [reread?, hreread, Option.map_some]⟩

/-- A value whose numbers are read as they are written is read so itself. -/
theorem Legible.definite {depth : Nat} {v : Json} (h : Legible depth v) : Definite depth v ∧ v.reread? = some v := by
  induction depth generalizing v with
  | zero =>
    cases v with
    | arr items | obj fields => exact absurd h id
    | num n => exact definite_num h
    | _ => exact ⟨trivial, rfl⟩
  | succ depth ih =>
    cases v with
    | arr items =>
      refine ⟨fun v hv => (ih (h v hv)).1, ?_⟩
      rw [reread?, rereadItems?_eq_some fun v hv => (ih (h v hv)).2, Option.map_some]
    | obj fields =>
      refine ⟨fun f hf => (ih (h f hf)).1, ?_⟩
      rw [reread?, rereadFields?_eq_some fun f hf => (ih (h f hf)).2, Option.map_some]
    | num n => exact definite_num h
    | _ => exact ⟨trivial, rfl⟩

theorem blank_of_mem_lineBreak {depth : Nat} : ∀ c ∈ lineBreak depth, Blank c := by
  intro c hc
  rcases List.mem_cons.1 hc with rfl | hc
  · exact .inr (.inl rfl)
  · exact .inl (List.eq_of_mem_replicate hc)

theorem prettyItems_eq_joined (depth : Nat) (items : List Json) :
    prettyItems depth items = joined (lineBreak depth) (prettyChars depth) items := by
  induction items with
  | nil => rfl
  | cons v items ih =>
    cases items with
    | nil => rfl
    | cons w rest => rw [prettyItems, joined, ih]

theorem prettyFields_eq_joined (depth : Nat) (fields : JsonFields) :
    prettyFields depth fields = joined (lineBreak depth) (fieldChars [' '] (prettyChars depth)) fields := by
  induction fields with
  | nil => rfl
  | cons f fields ih =>
    cases fields with
    | nil => simp [prettyFields, joined, fieldChars]
    | cons g rest => simp [prettyFields, joined, fieldChars, ih]

theorem compactItems_eq_joined (items : List Json) : compactItems items = joined [] compactChars items := by
  induction items with
  | nil => rfl
  | cons v items ih =>
    cases items with
    | nil => rfl
    | cons w rest => rw [compactItems, joined, ih, List.nil_append]

theorem compactFields_eq_joined (fields : JsonFields) :
    compactFields fields = joined [] (fieldChars [] compactChars) fields := by
  induction fields with
  | nil => rfl
  | cons f fields ih =>
    cases fields with
    | nil => simp [compactFields, joined, fieldChars]
    | cons g rest => simp [compactFields, joined, fieldChars, ih]

theorem readValue?_scalar {c : Char} (harray : c ≠ '[') (hobject : c ≠ '{') (depth : Nat) (cs : List Char) :
    readValue? depth (c :: cs) = readScalar? (c :: cs) := by
  cases depth with
  | zero => simp [readValue?, harray, hobject]
  | succ depth => simp [readValue?, harray, hobject]

/-- A number is told from other values by its first character. -/
theorem number_head {c : Char} (h : c.isDigit = true ∨ c = '-') :
    Opens c ∧ c ≠ '[' ∧ c ≠ '{' ∧
      ∀ cs, readScalar? (c :: cs) = (readNumber? (c :: cs)).map fun (n, after) => (.num n, after) := by
  have hne : ∀ d : Char, d.isDigit = false → d ≠ '-' → c ≠ d := by
    rintro d hdigit hsign rfl
    rcases h with h | h
    · exact Bool.false_ne_true (hdigit.symm.trans h)
    · exact hsign h
  refine ⟨⟨?_, hne _ rfl (by decide), hne _ rfl (by decide)⟩, hne _ rfl (by decide), hne _ rfl (by decide),
    fun cs => ?_⟩
  · rintro (h | h | h | h)
    all_goals exact hne _ rfl (by decide) h
  · unfold readScalar?
    split
    case h_5 => rfl
    all_goals
      next heq => exact absurd (List.cons.inj heq).1 (hne _ rfl (by decide))

theorem written_number {n : JsonNumber} (h : n.Definite) (depth : Nat) :
    Written (readValue? depth) (numberChars n) (reread? (.num n)) := by
  obtain ⟨c, cs, htext, hc⟩ := h.head
  obtain ⟨hopens, harray, hobject, hscalar⟩ := number_head hc
  refine ⟨⟨c, cs, htext, hopens⟩, fun rest hrest => ?_⟩
  have hread := h.read rest hrest
  rw [htext, List.cons_append] at hread ⊢
  rw [readValue?_scalar harray hobject, hscalar, hread, reread?, Option.map_map, Option.map_map]
  rfl

theorem written_text (s : String) (depth : Nat) : Written (readValue? depth) (quotedChars s) (some (.str s)) := by
  refine ⟨⟨'"', _, rfl, by simp [Opens, Blank]⟩, fun rest _ => ?_⟩
  have htext : quotedChars s ++ rest = '"' :: (s.toList.flatMap escapeChar ++ '"' :: rest) := by
    simp [quotedChars]
  rw [htext, readValue?_scalar (by decide) (by decide), readScalar?, readText?_quoted, Option.map_some, Option.map_some]

theorem written_word {word : List Char} {c : Char} {cs : List Char} {v : Json} (hword : word = c :: cs)
    (hopens : Opens c ∧ c ≠ '[' ∧ c ≠ '{') (hread : ∀ rest, readScalar? (c :: (cs ++ rest)) = some (v, rest))
    (depth : Nat) : Written (readValue? depth) word (some v) := by
  refine ⟨⟨c, cs, hword, hopens.1⟩, fun rest _ => ?_⟩
  rw [hword, List.cons_append, readValue?_scalar hopens.2.1 hopens.2.2, hread, Option.map_some]

section Scalars

variable {depth : Nat} {v : Json} (harray : ∀ items, v ≠ .arr items) (hobject : ∀ fields, v ≠ .obj fields)

include harray hobject

theorem written_scalar (h : Definite depth v) : Written (readValue? depth) (compactChars v) v.reread? := by
  cases v with
  | null => exact written_word (c := 'n') rfl (by simp [Opens, Blank]) (fun _ => rfl) depth
  | bool b =>
    cases b with
    | true => exact written_word (c := 't') rfl (by simp [Opens, Blank]) (fun _ => rfl) depth
    | false => exact written_word (c := 'f') rfl (by simp [Opens, Blank]) (fun _ => rfl) depth
  | num n =>
    refine written_number ?_ depth
    cases depth with
    | _ => exact h
  | str s => exact written_text s depth
  | arr items => exact absurd rfl (harray items)
  | obj fields => exact absurd rfl (hobject fields)

/-- A value that holds no other has one line, however it is written. -/
theorem prettyChars_scalar (indent : Nat) : prettyChars indent v = compactChars v := by
  cases v with
  | bool b =>
    cases b with
    | _ => rfl
  | arr items => exact absurd rfl (harray items)
  | obj fields => exact absurd rfl (hobject fields)
  | _ => rfl

end Scalars

/-- Of an array what is read of its items is read. -/
theorem written_array {depth indent : Nat} {items : List Json}
    (h : ∀ v ∈ items, Written (readValue? depth) (prettyChars (indent + 1) v) v.reread?) :
    Written (readValue? (depth + 1)) (prettyChars indent (.arr items)) (reread? (.arr items)) := by
  cases items with
  | nil => exact ⟨⟨'[', _, rfl, by simp [Opens, Blank]⟩, fun _ _ => rfl⟩
  | cons v items =>
    rw [prettyChars, prettyItems_eq_joined, List.append_assoc]
    exact written_items blank_of_mem_lineBreak blank_of_mem_lineBreak (List.cons_ne_nil v items) h

/-- Of an object what is read of the values of its fields is read. -/
theorem written_object {depth indent : Nat} {fields : JsonFields}
    (h : ∀ f ∈ fields, Written (readValue? depth) (prettyChars (indent + 1) f.2) f.2.reread?) :
    Written (readValue? (depth + 1)) (prettyChars indent (.obj fields)) (reread? (.obj fields)) := by
  cases fields with
  | nil => exact ⟨⟨'{', _, rfl, by simp [Opens, Blank]⟩, fun _ _ => rfl⟩
  | cons f fields =>
    rw [prettyChars, prettyFields_eq_joined, List.append_assoc]
    exact written_fields blank_of_mem_lineBreak (by simp [Blank]) blank_of_mem_lineBreak (List.cons_ne_nil f fields) h

/-- The same is read of a value at any indentation. -/
theorem written_pretty {depth : Nat} {v : Json} (h : Definite depth v) (indent : Nat) :
    Written (readValue? depth) (prettyChars indent v) v.reread? := by
  induction depth generalizing v indent with
  | zero =>
    cases v with
    | arr items | obj fields => exact absurd h id
    | _ =>
      rw [prettyChars_scalar (by simp) (by simp)]
      exact written_scalar (by simp) (by simp) h
  | succ depth ih =>
    cases v with
    | arr items => exact written_array fun v hv => ih (h v hv) (indent + 1)
    | obj fields => exact written_object fun f hf => ih (h f hf) (indent + 1)
    | _ =>
      rw [prettyChars_scalar (by simp) (by simp)]
      exact written_scalar (by simp) (by simp) h

/-- The same is read of a value on one line. -/
theorem written_compact {depth : Nat} {v : Json} (h : Definite depth v) :
    Written (readValue? depth) (compactChars v) v.reread? := by
  induction depth generalizing v with
  | zero =>
    cases v with
    | arr items | obj fields => exact absurd h id
    | _ => exact written_scalar (by simp) (by simp) h
  | succ depth ih =>
    have hnone : ∀ c ∈ ([] : List Char), Blank c := by simp
    cases v with
    | arr items =>
      have hitems : ∀ v ∈ items, Written (readValue? depth) (compactChars v) v.reread? := fun v hv => ih (h v hv)
      cases items with
      | nil => exact ⟨⟨'[', _, rfl, by simp [Opens, Blank]⟩, fun _ _ => rfl⟩
      | cons v items =>
        rw [compactChars, compactItems_eq_joined]
        exact written_items hnone hnone (List.cons_ne_nil v items) hitems
    | obj fields =>
      have hfields : ∀ f ∈ fields, Written (readValue? depth) (compactChars f.2) f.2.reread? := fun f hf => ih (h f hf)
      cases fields with
      | nil => exact ⟨⟨'{', _, rfl, by simp [Opens, Blank]⟩, fun _ _ => rfl⟩
      | cons f fields =>
        rw [compactChars, compactFields_eq_joined]
        exact written_fields hnone hnone hnone (List.cons_ne_nil f fields) hfields
    | _ => exact written_scalar (by simp) (by simp) h

theorem parseRaw?_of_written {v? : Option Json} {text : List Char} (h : Written (readValue? maxDepth) text v?) :
    parseRaw? (String.ofList text) = v? := by
  have hread := h.read [] (by simp [Ends])
  have hblank := h.skipBlank []
  rw [List.append_nil] at hread hblank
  rw [parseRaw?, String.toList_ofList, hblank, hread]
  cases v? with
  | _ => rfl

/-- The column of a value's text holds what is read of the value. -/
theorem parseRaw?_compact_eq_reread? {v : Json} (h : Definite maxDepth v) : parseRaw? (compact v) = v.reread? :=
  parseRaw?_of_written (written_compact h)

theorem parseRaw?_pretty {v : Json} (h : Legible maxDepth v) : parseRaw? (pretty v) = some v :=
  (parseRaw?_of_written (written_pretty h.definite.1 0)).trans h.definite.2

theorem parseRaw?_compact {v : Json} (h : Legible maxDepth v) : parseRaw? (compact v) = some v :=
  (parseRaw?_compact_eq_reread? h.definite.1).trans h.definite.2

/-- The text of the value, on several lines or on one, is read as the value. -/
def Faithful (v : Json) : Prop := parse? v.pretty = some v.sorted ∧ parse? v.compact = some v.sorted

theorem Legible.faithful {v : Json} (h : Legible maxDepth v) : v.Faithful := by
  constructor
  · rw [parse?, parseRaw?_pretty h, Option.map_some]
  · rw [parse?, parseRaw?_compact h, Option.map_some]

end Json

end ProxyFleet
