import Mathlib.Tactic.SplitIfs
import Mathlib.Data.List.TakeWhile
import ProxyFleet.Net.Host
import ProxyFleet.Proofs.Text.Percent

/-!
# The characters of hosts

A host is made of ASCII letters and digits, points, hyphens and colons, whichever of its three forms it
has. Every reader of an address passes over such characters only.

* `Net.isHostChar` : these characters;
* `Net.Passes` : what a reader leaves of a text, with such characters before it;
* `Net.isHostChar_of_isHost` : a host has no others.
-/

namespace ProxyFleet.Net

set_option autoImplicit false

/-- A character of hosts. -/
def isHostChar (c : Char) : Bool := c.isAlphanum || ['.', '-', ':'].contains c

/-- The rest of a text, after characters of hosts. -/
def Passes (cs rest : List Char) : Prop := ∃ front, cs = front ++ rest ∧ ∀ c ∈ front, isHostChar c = true

variable {cs rest rest' : List Char}

theorem Passes.refl (cs : List Char) : Passes cs cs := ⟨[], rfl, by simp⟩

theorem Passes.trans (h : Passes cs rest) (h' : Passes rest rest') : Passes cs rest' := by
  obtain ⟨front, rfl, hfront⟩ := h
  obtain ⟨front', rfl, hfront'⟩ := h'
  exact ⟨front ++ front', (List.append_assoc ..).symm, List.forall_mem_append.2 ⟨hfront, hfront'⟩⟩

theorem Passes.cons {c : Char} (hc : isHostChar c = true) (h : Passes cs rest) : Passes (c :: cs) rest := by
  obtain ⟨front, rfl, hfront⟩ := h
  exact ⟨c :: front, rfl, List.forall_mem_cons.2 ⟨hc, hfront⟩⟩

theorem Passes.all (h : Passes cs []) : ∀ c ∈ cs, isHostChar c = true := by
  obtain ⟨front, rfl, hfront⟩ := h
  rwa [List.append_nil]

theorem passes_takeWhile {p : Char → Bool} (hp : ∀ c, p c = true → isHostChar c = true) (cs : List Char) :
    Passes cs (cs.drop (cs.takeWhile p).length) := by
  refine ⟨cs.takeWhile p, ?_, fun c hc => hp c (List.mem_takeWhile_imp hc)⟩
  exact (List.prefix_iff_eq_append.1 (List.takeWhile_prefix p)).symm

/-! ## Addresses -/

theorem isHostChar_of_isDigit {c : Char} (h : c.isDigit = true) : isHostChar c = true := by
  simp [isHostChar, Char.isAlphanum, h]

theorem isAlphanum_of_isHex {c : Char} (h : isHex c = true) : c.isAlphanum = true := by
  have hdigit : c.isDigit = true ↔ '0' ≤ c ∧ c ≤ '9' := by
    simp [Char.isDigit, Char.le_def]
  rw [isHex, Bool.or_eq_true, Bool.or_eq_true, hdigit] at h
  simp only [Bool.and_eq_true, decide_eq_true_eq] at h
  rw [Text.isAlphanum_iff]
  rcases h with (h | h) | h
  · exact .inr h
  · exact .inl (.inr ⟨h.1, Char.le_trans h.2 (by decide)⟩)
  · exact .inl (.inl ⟨h.1, Char.le_trans h.2 (by decide)⟩)

theorem isHostChar_of_isHex {c : Char} (h : isHex c = true) : isHostChar c = true := by
  simp [isHostChar, isAlphanum_of_isHex h]

theorem passes_readOctet? (h : readOctet? cs = some rest) : Passes cs rest := by
  unfold readOctet? at h
  dsimp only at h
  split_ifs at h
  obtain rfl := Option.some.inj h
  exact passes_takeWhile (fun _ => isHostChar_of_isDigit) cs

theorem passes_readChar? {c : Char} (hc : isHostChar c = true) (h : readChar? c cs = some rest) :
    Passes cs rest := by
  cases cs with
  | nil => cases h
  | cons d cs =>
    rw [readChar?] at h
    split_ifs at h with hd
    obtain rfl := Option.some.inj h
    exact .cons (hd ▸ hc) (.refl cs)

theorem passes_readIPv4? (h : readIPv4? cs = some rest) : Passes cs rest := by
  have hpoint : isHostChar '.' = true := by decide
  simp only [readIPv4?, Option.bind_eq_bind, Option.bind_eq_some_iff] at h
  obtain ⟨_, h₁, _, h₂, _, h₃, _, h₄, _, h₅, _, h₆, h₇⟩ := h
  exact (passes_readOctet? h₁).trans <| (passes_readChar? hpoint h₂).trans <| (passes_readOctet? h₃).trans <|
    (passes_readChar? hpoint h₄).trans <| (passes_readOctet? h₅).trans <| (passes_readChar? hpoint h₆).trans <|
    passes_readOctet? h₇

theorem passes_readGroup? (h : readGroup? cs = some rest) : Passes cs rest := by
  unfold readGroup? at h
  dsimp only at h
  split_ifs at h
  obtain rfl := Option.some.inj h
  exact passes_takeWhile (fun _ => isHostChar_of_isHex) cs

theorem passes_readGroups (first : Bool) (room : Nat) (cs : List Char) :
    Passes cs (readGroups first room cs).2.2 := by
  induction room generalizing first cs with
  | zero => exact .refl cs
  | succ room ih =>
    rw [readGroups]
    split
    · exact .refl cs
    · next start hstart =>
      have hpass : Passes cs start := by
        split_ifs at hstart
        · obtain rfl := Option.some.inj hstart
          exact .refl cs
        · exact passes_readChar? (by decide) hstart
      split
      · next rest hrest =>
        split_ifs at hrest
        exact hpass.trans (passes_readIPv4? hrest)
      · split
        · exact .refl cs
        · next rest hgroup => exact hpass.trans ((passes_readGroup? hgroup).trans (ih false rest))

theorem isHostChar_of_isIPv4 {s : String} (h : isIPv4 s = true) : ∀ c ∈ s.toList, isHostChar c = true :=
  (passes_readIPv4? (by simpa [isIPv4] using h)).all

theorem isHostChar_of_isIPv6 {s : String} (h : isIPv6 s = true) : ∀ c ∈ s.toList, isHostChar c = true := by
  have hcolon : isHostChar ':' = true := by decide
  have hfront : Passes s.toList (readGroups true 8 s.toList).2.2 := passes_readGroups true 8 s.toList
  simp only [isIPv6] at h
  split_ifs at h
  · rw [List.isEmpty_iff] at h
    exact (h ▸ hfront).all
  · split at h
    · next rest hrest =>
      rw [List.isEmpty_iff] at h
      rw [hrest] at hfront
      refine (hfront.trans (.cons hcolon (.cons hcolon ?_))).all
      exact h ▸ passes_readGroups true _ rest
    · exact absurd h Bool.false_ne_true

/-! ## Domain names -/

theorem isHostChar_of_isLabel {label : List Char} (h : isLabel label = true) :
    ∀ c ∈ label, isHostChar c = true := by
  simp only [isLabel, Bool.and_eq_true, List.all_eq_true, Bool.or_eq_true, beq_iff_eq] at h
  intro c hc
  rcases h.1.1.2 c hc with halnum | rfl
  · simp [isHostChar, halnum]
  · decide

theorem isHostChar_of_isTopLabel {label : List Char} (h : isTopLabel label = true) :
    ∀ c ∈ label, isHostChar c = true := by
  simp only [isTopLabel, Bool.and_eq_true, List.all_eq_true] at h
  intro c hc
  simp [isHostChar, Char.isAlphanum, h.2 c hc]

theorem isHostChar_of_endsAsDomain {inner : Bool} {label cs : List Char}
    (h : endsAsDomain inner label cs = true) : ∀ c ∈ label.reverse ++ cs, isHostChar c = true := by
  induction cs generalizing inner label with
  | nil =>
    rw [endsAsDomain, Bool.and_eq_true] at h
    rw [List.append_nil]
    exact isHostChar_of_isTopLabel h.2
  | cons c rest ih =>
    rw [endsAsDomain] at h
    split_ifs at h with hpoint
    · -- the label ends here, and the next one starts with nothing
      rw [Bool.and_eq_true] at h
      refine List.forall_mem_append.2 ⟨isHostChar_of_isLabel h.1, List.forall_mem_cons.2 ⟨?_, ih h.2⟩⟩
      rw [hpoint]
      decide
    · have hrest := ih h
      rwa [List.reverse_cons, List.append_assoc, List.singleton_append] at hrest

/-- A host is made of letters, digits, points, hyphens and colons. -/
theorem isHostChar_of_isHost {s : String} (h : isHost s = true) : ∀ c ∈ s.toList, isHostChar c = true := by
  simp only [isHost, isIPAddress, Bool.or_eq_true, beq_iff_eq] at h
  rcases h with (rfl | h | h) | h
  · exact List.all_eq_true.1 (by decide)
  · exact isHostChar_of_isIPv4 h
  · exact isHostChar_of_isIPv6 h
  · exact isHostChar_of_endsAsDomain h

end ProxyFleet.Net
