import Mathlib.Order.Bounds.Basic
import ProxyFleet.Proofs.Engine.References

/-!
# The documents that are accepted

The checks of a document decide a language: a document is valid exactly if each outbound and each inbound is
well formed and their tags tell them apart. What a document refers to does not matter to this; it is warned
about only.

* `Inbound.WellFormed` : nothing is wrong with an inbound, its tag apart;
* `inboundErrors_eq_nil_iff` : when nothing is found about the inbounds of a document;
* `SameBut`, `errors_eq_of_sameBut` : errors are not about the members of groups, name resolution or routing;
* `Repeats`, `repetition` : a tag that occurs before, and the finding on it;
* `repeated_errors` : what is found about tags that occur before comes from the tags alone, where
  `mem_repeated_checkTags_iff` says what is found and `nodup_checkTags` that nothing is found twice;
* `validate_language` : which documents are accepted.
-/

namespace ProxyFleet.Engine

set_option autoImplicit false

/-! ## Inbounds -/

/-- Nothing is wrong with an inbound, its tag apart. -/
@[mk_iff]
structure Inbound.WellFormed (b : Inbound) : Prop where
  kind : b.kind ∈ inboundKinds
  listen : ∀ address ∈ b.listen, Net.isIPAddress address = true
  port : ∀ port ∈ b.listenPort, 1 ≤ port ∧ port ≤ 65535

theorem checkInbound_eq_nil_iff {tags : List String} {i : Nat} {b : Inbound} :
    checkInbound tags i b = [] ↔ checkTag .inbound "inbounds" tags i b.tag = [] ∧ b.WellFormed := by
  rw [Inbound.wellFormed_iff]
  unfold checkInbound
  rw [List.append_eq_nil_iff, List.append_eq_nil_iff, List.append_eq_nil_iff, checkListed_eq_nil_iff,
    and_comm (a := b.kind ∈ inboundKinds), and_assoc, and_assoc]
  refine and_congr_right fun _ => and_congr_right fun _ => and_congr ?_ ?_
  · cases b.listen with
    | none => simp
    | some address => simp
  · cases b.listenPort with
    | none => simp
    | some port => simp [checkPort_eq_nil_iff]

/-- The tags of the inbounds. -/
def Document.inboundTags (d : Document) : List String := d.inbounds.map (·.tag)

/-- When nothing is found about the inbounds of a document. -/
theorem inboundErrors_eq_nil_iff {d : Document} :
    d.inboundErrors = [] ↔ "" ∉ d.inboundTags ∧ d.inboundTags.Nodup ∧ ∀ b ∈ d.inbounds, b.WellFormed := by
  have htags : (∀ i (hi : i < d.inboundTags.length),
      checkTag .inbound "inbounds" d.inboundTags i d.inboundTags[i] = []) ↔
      "" ∉ d.inboundTags ∧ d.inboundTags.Nodup := checkTag_all_eq_nil_iff
  rw [← and_assoc, ← htags, Document.inboundErrors, flatten_mapIdx_eq_nil_iff]
  simp only [checkInbound_eq_nil_iff, forall_and, List.forall_mem_iff_getElem, Document.inboundTags, List.length_map,
    List.getElem_map]

/-! ## What errors are not about -/

/-- The outbound as one that is no group. -/
def Outbound.withoutMembers (o : Outbound) : Outbound := { o with members := none }

/-- The documents have the same inbounds, and the same outbounds but for the members of groups. -/
structure SameBut (d e : Document) : Prop where
  inbounds : d.inbounds = e.inbounds
  outbounds : d.outbounds.map (·.withoutMembers) = e.outbounds.map (·.withoutMembers)

/-- Errors are what is found without the members of groups, and without name resolution and routing. -/
theorem errors_withoutMembers (d : Document) :
    Document.errors { inbounds := d.inbounds, outbounds := d.outbounds.map (·.withoutMembers) } = d.errors := by
  have htags : Document.outboundTags { inbounds := d.inbounds, outbounds := d.outbounds.map (·.withoutMembers) } =
      d.outboundTags := by
    simp [Document.outboundTags, Outbound.withoutMembers, Function.comp_def]
  have hchecks : (d.outbounds.map (·.withoutMembers)).mapIdx (checkOutbound d.outboundTags) =
      d.outbounds.mapIdx (checkOutbound d.outboundTags) := by
    refine List.ext_getElem (by simp) fun i _ _ => ?_
    rw [List.getElem_mapIdx, List.getElem_mapIdx, List.getElem_map]
    rfl
  rw [Document.errors, Document.errors, Document.outboundErrors, Document.outboundErrors, htags, hchecks,
    List.isEmpty_map]
  rfl

theorem errors_eq_of_sameBut {d e : Document} (h : SameBut d e) : d.errors = e.errors := by
  rw [← errors_withoutMembers d, ← errors_withoutMembers e, h.inbounds, h.outbounds]

/-! ## Tags that occur before -/

/-- The tag at place `i` occurs before, and `j` is the first place where it does. -/
structure Repeats (tags : List String) (i j : Nat) (tag : String) : Prop where
  given : tag ≠ ""
  here : tags[i]? = some tag
  first : IsLeast {k | tags[k]? = some tag} j
  before : j < i

/-- The finding on a tag that occurs before. -/
def repetition (place : Nat → String → Place) (list : String) (i j : Nat) (tag : String) : Finding :=
  ⟨place i "tag", tag, .unique, s!"duplicate tag '{tag}' at {list}[{j}] and {list}[{i}]"⟩

/-- The first place of a tag is where it is found. -/
theorem isLeast_iff {tags : List String} {tag : String} (h : tag ∈ tags) {j : Nat} :
    IsLeast {k | tags[k]? = some tag} j ↔ tags.idxOf tag = j := by
  have hfirst : IsLeast {k | tags[k]? = some tag} (tags.idxOf tag) := by
    refine ⟨List.getElem?_idxOf h, fun k hk => ?_⟩
    by_contra hlt
    have hk : tags[k]? = some tag := hk
    obtain ⟨hk', rfl⟩ := List.getElem?_eq_some_iff.1 hk
    simpa using List.not_of_lt_findIdx (not_le.1 hlt)
  exact ⟨fun hj => hfirst.unique hj, fun hj => hj ▸ hfirst⟩

/-- Those of some findings that are about tags that occur before. -/
def repeated (fs : List Finding) : List Finding := fs.filter (·.rule = .unique)

section Tags

variable {place : Nat → String → Place} {list : String} {tags : List String}

theorem mem_repeated_checkTag_iff {i : Nat} {tag : String} (htag : tags[i]? = some tag) {f : Finding} :
    f ∈ repeated (checkTag place list tags i tag) ↔ ∃ j, Repeats tags i j tag ∧ f = repetition place list i j tag := by
  have hmem : tag ∈ tags := List.mem_of_getElem? htag
  have hrepeats : ∀ j, Repeats tags i j tag ↔ tag ≠ "" ∧ tags.idxOf tag = j ∧ j < i := fun j =>
    ⟨fun h => ⟨h.given, (isLeast_iff hmem).1 h.first, h.before⟩,
      fun ⟨hgiven, hfirst, hbefore⟩ => ⟨hgiven, htag, (isLeast_iff hmem).2 hfirst, hbefore⟩⟩
  simp only [hrepeats, repeated, List.mem_filter, decide_eq_true_eq]
  unfold checkTag
  simp only [String.isEmpty_iff]
  split_ifs with hempty hbefore
  · simp only [List.mem_singleton, hempty, ne_eq, not_true_eq_false, false_and, exists_false, iff_false, not_and]
    rintro rfl hrule
    cases hrule
  · constructor
    · rintro ⟨hf, -⟩
      exact ⟨_, ⟨hempty, rfl, hbefore⟩, List.mem_singleton.1 hf⟩
    · rintro ⟨j, ⟨-, rfl, -⟩, rfl⟩
      exact ⟨List.mem_singleton.2 rfl, rfl⟩
  · simp only [List.not_mem_nil, false_and, false_iff, not_exists, not_and]
    rintro j ⟨-, rfl, hlt⟩
    exact absurd hlt hbefore

theorem place_checkTag {i : Nat} {tag : String} : ∀ f ∈ checkTag place list tags i tag, f.place = place i "tag" := by
  grind [checkTag, missing]

theorem nodup_checkTag {i : Nat} {tag : String} : (checkTag place list tags i tag).Nodup := by
  unfold checkTag
  dsimp only
  split_ifs
  · exact List.nodup_singleton _
  · exact List.nodup_singleton _
  · exact List.nodup_nil

/-- What is found about the tags of a list. -/
def checkTags (place : Nat → String → Place) (list : String) (tags : List String) : List Finding :=
  (tags.mapIdx (checkTag place list tags)).flatten

theorem mem_repeated_checkTags_iff {f : Finding} :
    f ∈ repeated (checkTags place list tags) ↔
      ∃ i j tag, Repeats tags i j tag ∧ f = repetition place list i j tag := by
  rw [repeated, checkTags, List.filter_flatten, List.mem_flatten]
  constructor
  · rintro ⟨_, hmem, hf⟩
    obtain ⟨_, hcheck, rfl⟩ := List.mem_map.1 hmem
    obtain ⟨i, hi, rfl⟩ := List.getElem_of_mem hcheck
    rw [List.length_mapIdx] at hi
    rw [List.getElem_mapIdx] at hf
    obtain ⟨j, hj⟩ := (mem_repeated_checkTag_iff (List.getElem?_eq_getElem hi)).1 hf
    exact ⟨i, j, _, hj⟩
  · rintro ⟨i, j, tag, hrepeats, hf⟩
    obtain ⟨hi, rfl⟩ := List.getElem?_eq_some_iff.1 hrepeats.here
    refine ⟨_, List.mem_map.2 ⟨_, List.mem_iff_getElem.2 ⟨i, by simpa using hi, rfl⟩, rfl⟩, ?_⟩
    rw [List.getElem_mapIdx]
    exact (mem_repeated_checkTag_iff hrepeats.here).2 ⟨j, hrepeats, hf⟩

/-- Nothing is found twice, if places are told apart by their index. -/
theorem nodup_checkTags (hplace : ∀ i j, place i "tag" = place j "tag" → i = j) :
    (checkTags place list tags).Nodup := by
  rw [checkTags, List.nodup_flatten]
  constructor
  · intro fs hfs
    obtain ⟨i, hi, rfl⟩ := List.getElem_of_mem hfs
    rw [List.getElem_mapIdx]
    exact nodup_checkTag
  · refine List.pairwise_iff_getElem.2 fun i j hi hj hij => ?_
    rw [List.getElem_mapIdx, List.getElem_mapIdx]
    intro f hf hf'
    exact Nat.ne_of_lt hij (hplace i j ((place_checkTag f hf).symm.trans (place_checkTag f hf')))

/-- Where a check of an element finds on tags what the check of its tag finds, so does the check of a list. -/
theorem repeated_flatten {α : Type} {tagOf : α → String} {l : List α} {check : Nat → α → List Finding}
    (hcheck : ∀ i a, repeated (check i a) = repeated (checkTag place list (l.map tagOf) i (tagOf a))) :
    repeated (l.mapIdx check).flatten = repeated (checkTags place list (l.map tagOf)) := by
  rw [repeated, repeated, checkTags, List.filter_flatten, List.filter_flatten]
  congr 1
  refine List.ext_getElem (by simp) fun i _ _ => ?_
  simp only [List.getElem_map, List.getElem_mapIdx]
  exact hcheck i _

end Tags

/-! ## Findings on the other rules -/

theorem repeated_append_left {fs gs : List Finding} (h : ∀ f ∈ gs, f.rule ≠ .unique) :
    repeated (fs ++ gs) = repeated fs := by
  have hnone : gs.filter (·.rule = .unique) = [] := by simpa using h
  rw [repeated, List.filter_append, hnone, List.append_nil]
  rfl

theorem repeated_append_right {fs gs : List Finding} (h : ∀ f ∈ fs, f.rule ≠ .unique) :
    repeated (fs ++ gs) = repeated gs := by
  have hnone : fs.filter (·.rule = .unique) = [] := by simpa using h
  rw [repeated, List.filter_append, hnone, List.nil_append]
  rfl

theorem rule_checkEndpoint (i : Nat) (o : Outbound) : ∀ f ∈ checkEndpoint i o, f.rule ≠ .unique := by
  grind [checkEndpoint, missing, checkPort]

theorem rule_checkKindFields (i : Nat) (o : Outbound) : ∀ f ∈ checkKindFields i o, f.rule ≠ .unique := by
  grind [checkKindFields, checkUuid, checkPassword, checkPresent, checkListed, missing]

theorem repeated_checkOutbound (tags : List String) (i : Nat) (o : Outbound) :
    repeated (checkOutbound tags i o) = repeated (checkTag .outbound "outbounds" tags i o.tag) := by
  refine repeated_append_left ?_
  split_ifs
  · exact List.forall_mem_append.2 ⟨rule_checkEndpoint i o, rule_checkKindFields i o⟩
  · exact rule_checkKindFields i o
  · simp

theorem repeated_checkInbound (tags : List String) (i : Nat) (b : Inbound) :
    repeated (checkInbound tags i b) = repeated (checkTag .inbound "inbounds" tags i b.tag) := by
  unfold checkInbound
  rw [repeated_append_left, repeated_append_left, repeated_append_right]
  · grind [checkListed]
  · grind
  · grind [checkPort]

/-- What is found about repeated tags is found about those of the outbounds, and about those of the inbounds. -/
theorem repeated_errors (d : Document) : repeated d.errors =
    repeated (checkTags .outbound "outbounds" d.outboundTags) ++
      repeated (checkTags .inbound "inbounds" d.inboundTags) := by
  have hsplit : repeated d.errors = repeated d.outboundErrors ++ repeated d.inboundErrors := List.filter_append ..
  have houtbounds : repeated d.outboundErrors = repeated (checkTags .outbound "outbounds" d.outboundTags) := by
    unfold Document.outboundErrors
    split_ifs with hempty
    · rw [List.isEmpty_iff] at hempty
      rw [Document.outboundTags, hempty]
      rfl
    · exact repeated_flatten fun i o => repeated_checkOutbound _ i o
  rw [hsplit, houtbounds]
  congr 1
  exact repeated_flatten fun i b => repeated_checkInbound _ i b

theorem nodup_repeated_errors (d : Document) : (repeated d.errors).Nodup := by
  have houtbound : ∀ i j, Place.outbound i "tag" = Place.outbound j "tag" → i = j := fun _ _ h =>
    (Place.outbound.inj h).1
  have hinbound : ∀ i j, Place.inbound i "tag" = Place.inbound j "tag" → i = j := fun _ _ h =>
    (Place.inbound.inj h).1
  rw [repeated_errors, List.nodup_append']
  refine ⟨(nodup_checkTags houtbound).filter _, (nodup_checkTags hinbound).filter _, fun f hf hf' => ?_⟩
  obtain ⟨i, j, tag, -, rfl⟩ := mem_repeated_checkTags_iff.1 hf
  obtain ⟨i', j', tag', -, heq⟩ := mem_repeated_checkTags_iff.1 hf'
  cases congrArg Finding.place heq

/-! ## The language -/

/-- **Which documents are accepted.** A document is valid exactly if it has an outbound, the outbounds have
tags that tell them apart and are well formed, and so are the inbounds. Other documents with the same
inbounds, and with the same outbounds but for the members of groups, have the same errors, whatever they say
on name resolution and routing. Tags that occur before are found exactly where they do, each once and with
the first place of the tag. -/
theorem validate_language (d : Document) :
    (d.validate.valid = true ↔
      d.outbounds ≠ [] ∧ "" ∉ d.outboundTags ∧ d.outboundTags.Nodup ∧ (∀ o ∈ d.outbounds, o.WellFormed) ∧
      "" ∉ d.inboundTags ∧ d.inboundTags.Nodup ∧ ∀ b ∈ d.inbounds, b.WellFormed) ∧
    (∀ e, SameBut d e → d.validate.errors = e.validate.errors ∧ d.validate.valid = e.validate.valid) ∧
    (∀ f, f ∈ d.validate.errors ∧ f.rule = .unique ↔
      (∃ i j tag, Repeats d.outboundTags i j tag ∧ f = repetition .outbound "outbounds" i j tag) ∨
      ∃ i j tag, Repeats d.inboundTags i j tag ∧ f = repetition .inbound "inbounds" i j tag) ∧
    (d.validate.errors.filter (·.rule = .unique)).Nodup := by
  refine ⟨?_, fun e he => ?_, fun f => ?_, nodup_repeated_errors d⟩
  · rw [valid_validate_iff, Document.errors, List.append_eq_nil_iff, outboundErrors_eq_nil_iff,
      inboundErrors_eq_nil_iff]
    simp only [and_assoc]
  · have herrors := errors_eq_of_sameBut he
    exact ⟨herrors, congrArg List.isEmpty herrors⟩
  · have hmem : f ∈ d.validate.errors ∧ f.rule = .unique ↔ f ∈ repeated d.errors := by
      simp [repeated, Document.validate]
    rw [hmem, repeated_errors, List.mem_append, mem_repeated_checkTags_iff, mem_repeated_checkTags_iff]

/-- An outbound of no known kind is not looked at further, but its tag counts; an empty tag is missing and
repeats nothing. -/
example :
    let d : Document := { outbounds :=
      [{ kind := "none", tag := "a" }, { kind := "direct" }, { kind := "direct", tag := "a" }, { kind := "block" },
        { kind := "dns", tag := "a" }] }
    d.validate.errors.map (fun f => (f.place, f.rule)) =
        [(.outbound 0 "type", .enum), (.outbound 1 "tag", .required), (.outbound 2 "tag", .unique),
          (.outbound 3 "tag", .required), (.outbound 4 "tag", .unique)] ∧
      (d.validate.errors.getLast?).map (·.message) = some "duplicate tag 'a' at outbounds[0] and outbounds[4]" := by
  decide +kernel

end ProxyFleet.Engine
