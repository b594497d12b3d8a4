import Mathlib.Computability.RegularExpressions
import ProxyFleet.Proofs.Net.Host
import ProxyFleet.Proofs.Text.Split

/-!
# The grammar of hosts

A domain name is told from other texts in one pass over its characters. The texts that pass are those whose
pieces between the points are labels, and also those of a regular expression.

* `Net.Label`, `Net.TopLabel`, `Net.DomainName` : the pieces, and the names that are made of them;
* `Net.domainExpression` : the regular expression, with its bounded repetitions written as powers;
* `Net.isDomain_iff`, `Net.mem_domainExpression_iff` : both describe what passes;
* `Net.isHost_grammar` : what a host is, and of which characters it is made.
-/

namespace ProxyFleet.Net

set_option autoImplicit false

/-- An ASCII letter. -/
def Letter (c : Char) : Prop := ('A' ≤ c ∧ c ≤ 'Z') ∨ ('a' ≤ c ∧ c ≤ 'z')

/-- An ASCII letter or digit. -/
def Alphanumeric (c : Char) : Prop := Letter c ∨ ('0' ≤ c ∧ c ≤ '9')

/-- One to 63 letters, digits and hyphens, with no hyphen at either end. -/
structure Label (cs : List Char) : Prop where
  length : 1 ≤ cs.length ∧ cs.length ≤ 63
  chars : ∀ c ∈ cs, Alphanumeric c ∨ c = '-'
  first : cs.head? ≠ some '-'
  last : cs.getLast? ≠ some '-'

/-- Two to 63 letters. -/
structure TopLabel (cs : List Char) : Prop where
  length : 2 ≤ cs.length ∧ cs.length ≤ 63
  chars : ∀ c ∈ cs, Letter c

/-- The pieces between the points are labels, at least one, and a last one of letters. -/
def DomainName (cs : List Char) : Prop :=
  ∃ labels top, Text.splitChars '.' cs = labels ++ [top] ∧ labels ≠ [] ∧ (∀ label ∈ labels, Label label) ∧
    TopLabel top

theorem isAlpha_iff {c : Char} : c.isAlpha = true ↔ Letter c := by
  have hc : c.isAlpha = (decide ('A' ≤ c ∧ c ≤ 'Z') || (decide ('a' ≤ c) && decide (c ≤ 'z'))) := rfl
  simp only [hc, Letter, Bool.or_eq_true, Bool.and_eq_true, decide_eq_true_eq]

theorem isLabel_iff {cs : List Char} : isLabel cs = true ↔ Label cs := by
  have hchars : (∀ c ∈ cs, (c.isAlphanum || c == '-') = true) ↔ ∀ c ∈ cs, Alphanumeric c ∨ c = '-' := by
    simp [Text.isAlphanum_iff, Alphanumeric, Letter]
  simp only [isLabel, Bool.and_eq_true, decide_eq_true_eq, List.all_eq_true, bne_iff_ne, hchars]
  constructor
  · rintro ⟨⟨⟨hlength, hc⟩, hfirst⟩, hlast⟩
    exact ⟨hlength, hc, hfirst, hlast⟩
  · intro h
    exact ⟨⟨⟨h.length, h.chars⟩, h.first⟩, h.last⟩

theorem isTopLabel_iff {cs : List Char} : isTopLabel cs = true ↔ TopLabel cs := by
  simp only [isTopLabel, Bool.and_eq_true, decide_eq_true_eq, List.all_eq_true, isAlpha_iff]
  exact ⟨fun h => ⟨h.1, h.2⟩, fun h => ⟨h.length, h.chars⟩⟩

theorem not_alphanumeric_point : ¬Alphanumeric '.' := by
  unfold Alphanumeric Letter
  decide

theorem Label.point_notMem {cs : List Char} (h : Label cs) : '.' ∉ cs := fun hmem =>
  (h.chars _ hmem).elim not_alphanumeric_point (by decide)

theorem TopLabel.point_notMem {cs : List Char} (h : TopLabel cs) : '.' ∉ cs := fun hmem =>
  not_alphanumeric_point (.inl (h.chars _ hmem))

/-! ## In one pass -/

/-- What is left to read, after the characters of `label` since the last point. -/
theorem endsAsDomain_iff {inner : Bool} {label cs : List Char} (hlabel : '.' ∉ label) :
    endsAsDomain inner label cs = true ↔
      ∃ labels top, Text.splitChars '.' (label.reverse ++ cs) = labels ++ [top] ∧
        (inner = true ∨ labels ≠ []) ∧ (∀ label ∈ labels, Label label) ∧ TopLabel top := by
  induction cs generalizing inner label with
  | nil =>
    rw [endsAsDomain, List.append_nil, Text.splitChars_of_notMem (by simpa using hlabel), Bool.and_eq_true,
      isTopLabel_iff]
    constructor
    · rintro ⟨hinner, htop⟩
      exact ⟨[], label.reverse, rfl, .inl hinner, by simp, htop⟩
    · rintro ⟨labels, top, hsplit, hinner, -, htop⟩
      obtain ⟨rfl, rfl⟩ : labels = [] ∧ label.reverse = top := by
        cases labels with
        | nil => exact ⟨rfl, by simpa using hsplit⟩
        | cons l labels => simp at hsplit
      exact ⟨hinner.resolve_right (· rfl), htop⟩
  | cons c rest ih =>
    rw [endsAsDomain]
    split_ifs with hpoint
    · -- the label ends here, and the next one starts with nothing
      subst hpoint
      rw [Text.splitChars_append (by simpa using hlabel), Bool.and_eq_true, isLabel_iff, ih List.not_mem_nil]
      constructor
      · rintro ⟨hl, labels, top, hsplit, -, hlabels, htop⟩
        exact ⟨label.reverse :: labels, top, congrArg (label.reverse :: ·) hsplit, .inr (List.cons_ne_nil _ _),
          List.forall_mem_cons.2 ⟨hl, hlabels⟩, htop⟩
      · rintro ⟨labels, top, hsplit, -, hlabels, htop⟩
        cases labels with
        | nil => exact absurd (List.cons.inj hsplit).2 (Text.splitChars_ne_nil _ _)
        | cons l labels =>
          obtain ⟨rfl, hrest⟩ := List.cons.inj hsplit
          obtain ⟨hl, hlabels⟩ := List.forall_mem_cons.1 hlabels
          exact ⟨hl, labels, top, hrest, .inl rfl, hlabels, htop⟩
    · have hcons : (c :: label).reverse ++ rest = label.reverse ++ c :: rest := by
        rw [List.reverse_cons, List.append_assoc, List.singleton_append]
      rw [ih (by simpa [eq_comm] using ⟨hpoint, hlabel⟩), hcons]

theorem isDomain_iff {s : String} : isDomain s = true ↔ DomainName s.toList := by
  rw [isDomain, endsAsDomain_iff List.not_mem_nil, DomainName]
  simp

/-! ## By a regular expression -/

section Expression

open RegularExpression

/-- One of some characters. -/
def oneOf (cs : List Char) : RegularExpression Char := (cs.map char).sum

/-- At least and at most so many of some characters. -/
def repeated (least most : Nat) (cs : List Char) : RegularExpression Char :=
  oneOf cs ^ least * (1 + oneOf cs) ^ (most - least)

/-- The ASCII letters. -/
def letters : List Char := "ABCDEFGHIJKLMNOPQRSTUVWXYZabcdefghijklmnopqrstuvwxyz".toList

/-- The ASCII letters and digits. -/
def alphanumerics : List Char := letters ++ "0123456789".toList

/-- A letter or digit, and then perhaps others with hyphens among them, the last of which is no hyphen. -/
def labelExpression : RegularExpression Char :=
  oneOf alphanumerics * (1 + repeated 0 61 (alphanumerics ++ ['-']) * oneOf alphanumerics)

/-- Labels, each with a point after it, and at the end two to 63 letters. -/
def domainExpression : RegularExpression Char :=
  labelExpression * char '.' * (labelExpression * char '.').star * repeated 2 63 letters

instance : DecidablePred Letter := fun _ => inferInstanceAs (Decidable (_ ∨ _))

instance : DecidablePred Alphanumeric := fun _ => inferInstanceAs (Decidable (_ ∨ _))

theorem Alphanumeric.toNat_lt {c : Char} (h : Alphanumeric c) : c.toNat < 128 :=
  Text.lt_of_isEncoded (by rw [Text.isEncoded, Text.isAlphanum_iff.2 h, Bool.true_or])

theorem Alphanumeric.ne_hyphen {c : Char} (h : Alphanumeric c) : c ≠ '-' := by
  rintro rfl
  exact absurd h (by decide)

/-- What is written out is had from the codes. -/
theorem mem_of_codes {cs : List Char} {p : Char → Prop} (hascii : cs.all (·.toNat < 128))
    (hcodes : ∀ n < 128, Char.ofNat n ∈ cs ↔ p (Char.ofNat n)) (hp : ∀ c, p c → c.toNat < 128) {c : Char} :
    c ∈ cs ↔ p c := by
  have hcode : c.toNat < 128 → (c ∈ cs ↔ p c) := by
    intro h
    obtain ⟨n, hn, rfl⟩ := Text.exists_code h
    exact hcodes n hn
  exact ⟨fun hc => (hcode (of_decide_eq_true (List.all_eq_true.1 hascii c hc))).1 hc, fun hc => (hcode (hp c hc)).2 hc⟩

theorem mem_letters {c : Char} : c ∈ letters ↔ Letter c :=
  mem_of_codes (by decide) (by decide) (fun _ h => Alphanumeric.toNat_lt (.inl h))

theorem mem_alphanumerics {c : Char} : c ∈ alphanumerics ↔ Alphanumeric c := by
  have hdigits : c ∈ "0123456789".toList ↔ '0' ≤ c ∧ c ≤ '9' :=
    mem_of_codes (p := fun c => '0' ≤ c ∧ c ≤ '9') (by decide) (by decide) fun _ h => Alphanumeric.toNat_lt (.inr h)
  rw [alphanumerics, List.mem_append, mem_letters, hdigits, Alphanumeric]

variable {cs text : List Char}

theorem mem_oneOf : text ∈ (oneOf cs).matches' ↔ ∃ c ∈ cs, text = [c] := by
  induction cs with
  | nil => simp [oneOf]
  | cons c cs ih =>
    have hcons : oneOf (c :: cs) = char c + oneOf cs := List.sum_cons
    have hone : text ∈ (char c).matches' ↔ text = [c] := Iff.rfl
    rw [hcons, matches'_add, Language.mem_add, ih, hone]
    simp

theorem mem_oneOf_pow {n : Nat} :
    text ∈ (oneOf cs).matches' ^ n ↔ text.length = n ∧ ∀ c ∈ text, c ∈ cs := by
  induction n generalizing text with
  | zero => simp +contextual [Language.mem_one]
  | succ n ih =>
    rw [pow_succ', Language.mem_mul]
    constructor
    · rintro ⟨_, hfirst, rest, hrest, rfl⟩
      obtain ⟨c, hc, rfl⟩ := mem_oneOf.1 hfirst
      obtain ⟨hlength, hall⟩ := ih.1 hrest
      exact ⟨congrArg (· + 1) hlength, List.forall_mem_cons.2 ⟨hc, hall⟩⟩
    · rintro ⟨hlength, hall⟩
      obtain ⟨c, rest, rfl⟩ := List.exists_cons_of_length_eq_add_one hlength
      obtain ⟨hc, hall⟩ := List.forall_mem_cons.1 hall
      exact ⟨[c], mem_oneOf.2 ⟨c, hc, rfl⟩, rest, ih.2 ⟨Nat.succ.inj hlength, hall⟩, rfl⟩

theorem mem_optional_pow {n : Nat} :
    text ∈ (1 + oneOf cs).matches' ^ n ↔ text.length ≤ n ∧ ∀ c ∈ text, c ∈ cs := by
  induction n generalizing text with
  | zero => simp +contextual [Language.mem_one]
  | succ n ih =>
    rw [pow_succ', Language.mem_mul]
    constructor
    · rintro ⟨_, hfirst, rest, hrest, rfl⟩
      obtain ⟨hlength, hall⟩ := ih.1 hrest
      rcases hfirst with rfl | hfirst
      · exact ⟨Nat.le_succ_of_le hlength, hall⟩
      · obtain ⟨c, hc, rfl⟩ := mem_oneOf.1 hfirst
        exact ⟨Nat.succ_le_succ hlength, List.forall_mem_cons.2 ⟨hc, hall⟩⟩
    · rintro ⟨hlength, hall⟩
      cases text with
      | nil => exact ⟨[], .inl rfl, [], ih.2 ⟨Nat.zero_le n, hall⟩, rfl⟩
      | cons c rest =>
        obtain ⟨hc, hall⟩ := List.forall_mem_cons.1 hall
        exact ⟨[c], .inr (mem_oneOf.2 ⟨c, hc, rfl⟩), rest, ih.2 ⟨Nat.le_of_succ_le_succ hlength, hall⟩, rfl⟩

theorem mem_repeated {least most : Nat} (h : least ≤ most) :
    text ∈ (repeated least most cs).matches' ↔
      (least ≤ text.length ∧ text.length ≤ most) ∧ ∀ c ∈ text, c ∈ cs := by
  rw [repeated, matches'_mul, matches'_pow, matches'_pow, Language.mem_mul]
  constructor
  · rintro ⟨front, hfront, back, hback, rfl⟩
    obtain ⟨hlength, hall⟩ := mem_oneOf_pow.1 hfront
    obtain ⟨hmore, hall'⟩ := mem_optional_pow.1 hback
    rw [List.length_append]
    exact ⟨by omega, List.forall_mem_append.2 ⟨hall, hall'⟩⟩
  · rintro ⟨⟨hleast, hmost⟩, hall⟩
    refine ⟨text.take least, mem_oneOf_pow.2 ⟨?_, fun c hc => hall c (List.mem_of_mem_take hc)⟩,
      text.drop least, mem_optional_pow.2 ⟨?_, fun c hc => hall c (List.mem_of_mem_drop hc)⟩,
      List.take_append_drop ..⟩
    · rw [List.length_take, Nat.min_eq_left hleast]
    · rw [List.length_drop]
      omega

theorem mem_labelExpression : text ∈ labelExpression.matches' ↔ Label text := by
  have hinner : ∀ c, c ∈ alphanumerics ++ ['-'] ↔ Alphanumeric c ∨ c = '-' := by
    simp [mem_alphanumerics]
  have hgetLast : ∀ c d (middle : List Char), (c :: (middle ++ [d])).getLast? = some d :=
    fun c d middle => List.getLast?_concat (l := c :: middle)
  constructor
  · rintro ⟨_, hfirst, rest, hrest, rfl⟩
    obtain ⟨c, hc, rfl⟩ := mem_oneOf.1 hfirst
    rw [mem_alphanumerics] at hc
    rcases hrest with rfl | ⟨middle, hmiddle, _, hlast, rfl⟩
    · exact ⟨by simp, by simp [hc], by simpa using hc.ne_hyphen, by simpa using hc.ne_hyphen⟩
    · obtain ⟨d, hd, rfl⟩ := mem_oneOf.1 hlast
      rw [mem_alphanumerics] at hd
      obtain ⟨⟨-, hlength⟩, hall⟩ := (mem_repeated (by decide)).1 hmiddle
      have hchars : ∀ x ∈ middle, Alphanumeric x ∨ x = '-' := fun x hx => (hinner x).1 (hall x hx)
      show Label (c :: (middle ++ [d]))
      have hbounds : 1 ≤ (c :: (middle ++ [d])).length ∧ (c :: (middle ++ [d])).length ≤ 63 := by
        rw [List.length_cons, List.length_append, List.length_singleton]
        omega
      refine ⟨hbounds, ?_, by simpa using hc.ne_hyphen, ?_⟩
      · have hlast : ∀ x ∈ [d], Alphanumeric x ∨ x = '-' := by simp [hd]
        exact List.forall_mem_cons.2 ⟨.inl hc, List.forall_mem_append.2 ⟨hchars, hlast⟩⟩
      · exact (hgetLast c d middle).trans_ne (by simpa using hd.ne_hyphen)
  · intro h
    obtain ⟨c, rest, rfl⟩ := List.exists_cons_of_length_pos h.length.1
    have hc : Alphanumeric c := (h.chars c List.mem_cons_self).resolve_right fun hc => h.first (hc ▸ rfl)
    refine ⟨[c], mem_oneOf.2 ⟨c, mem_alphanumerics.2 hc, rfl⟩, rest, ?_, rfl⟩
    rcases List.eq_nil_or_concat rest with rfl | ⟨middle, d, rfl⟩
    · exact .inl rfl
    · rw [List.concat_eq_append] at h ⊢
      obtain ⟨-, hchars⟩ := List.forall_mem_cons.1 h.chars
      obtain ⟨hmiddle, hd⟩ := List.forall_mem_append.1 hchars
      have hd : Alphanumeric d := (hd d (by simp)).resolve_right fun hd =>
        h.last ((hgetLast c d middle).trans (congrArg some hd))
      have hlength := h.length.2
      rw [List.length_cons, List.length_append, List.length_singleton] at hlength
      have hrepeated : middle ∈ (repeated 0 61 (alphanumerics ++ ['-'])).matches' :=
        (mem_repeated (by decide)).2 ⟨by omega, fun x hx => (hinner x).2 (hmiddle x hx)⟩
      exact .inr ⟨middle, hrepeated, [d], mem_oneOf.2 ⟨d, mem_alphanumerics.2 hd, rfl⟩, rfl⟩

/-- Labels with a point after each. -/
theorem mem_star_labelExpression : text ∈ (labelExpression * char '.').star.matches' ↔
    ∃ labels : List (List Char), text = (labels.map (· ++ ['.'])).flatten ∧ ∀ label ∈ labels, Label label := by
  rw [matches'_star, Language.mem_kstar]
  constructor
  · rintro ⟨pieces, rfl, hpieces⟩
    induction pieces with
    | nil => exact ⟨[], rfl, by simp⟩
    | cons piece pieces ih =>
      obtain ⟨⟨label, hlabel, _, rfl, rfl⟩, hrest⟩ := List.forall_mem_cons.1 hpieces
      obtain ⟨labels, heq, hlabels⟩ := ih hrest
      exact ⟨label :: labels, congrArg (_ ++ ·) heq, List.forall_mem_cons.2 ⟨mem_labelExpression.1 hlabel, hlabels⟩⟩
  · rintro ⟨labels, rfl, hlabels⟩
    refine ⟨_, rfl, List.forall_mem_map.2 fun label hlabel => ?_⟩
    exact ⟨label, mem_labelExpression.2 (hlabels label hlabel), ['.'], rfl, rfl⟩

theorem mem_domainExpression_iff : text ∈ domainExpression.matches' ↔ DomainName text := by
  have htop : ∀ {top : List Char}, top ∈ (repeated 2 63 letters).matches' ↔ TopLabel top := by
    intro top
    rw [mem_repeated (by decide)]
    simp only [mem_letters]
    exact ⟨fun h => ⟨h.1, h.2⟩, fun h => ⟨h.length, h.chars⟩⟩
  constructor
  · rintro ⟨_, ⟨_, ⟨label, hlabel, _, rfl, rfl⟩, _, hmore, rfl⟩, top, hlast, rfl⟩
    obtain ⟨labels, rfl, hlabels⟩ := mem_star_labelExpression.1 hmore
    have hall : ∀ l ∈ label :: labels, Label l := List.forall_mem_cons.2 ⟨mem_labelExpression.1 hlabel, hlabels⟩
    have htop := htop.1 hlast
    refine ⟨label :: labels, top, ?_, List.cons_ne_nil _ _, hall, htop⟩
    exact Text.splitChars_flatten (fun l hl => (hall l hl).point_notMem) htop.point_notMem
  · rintro ⟨labels, top, hsplit, hne, hlabels, hlast⟩
    obtain rfl := Text.eq_flatten_of_splitChars hsplit
    obtain ⟨label, labels, rfl⟩ := List.exists_cons_of_ne_nil hne
    obtain ⟨hlabel, hlabels⟩ := List.forall_mem_cons.1 hlabels
    exact ⟨_, ⟨_, ⟨label, mem_labelExpression.2 hlabel, ['.'], rfl, rfl⟩, _,
      mem_star_labelExpression.2 ⟨labels, rfl, hlabels⟩, rfl⟩, top, htop.2 hlast, rfl⟩

end Expression

/-- **What a host is**: `localhost`, an IP literal, or a domain name, which is to say a text of the regular
expression; and a host is made of letters, digits, points, hyphens and colons. -/
theorem isHost_grammar (s : String) :
    (isHost s = true ↔ s = "localhost" ∨ isIPAddress s = true ∨ DomainName s.toList) ∧
    (isDomain s = true ↔ s.toList ∈ domainExpression.matches') ∧
    (isHost s = true → ∀ c ∈ s.toList, Alphanumeric c ∨ c ∈ ['.', '-', ':']) := by
  refine ⟨?_, by rw [isDomain_iff, mem_domainExpression_iff], fun h c hc => ?_⟩
  · rw [isHost, Bool.or_eq_true, Bool.or_eq_true, beq_iff_eq, isDomain_iff, or_assoc]
  · have hchar := isHostChar_of_isHost h c hc
    rw [isHostChar, Bool.or_eq_true, Text.isAlphanum_iff, List.contains_iff_mem] at hchar
    exact hchar

end ProxyFleet.Net
