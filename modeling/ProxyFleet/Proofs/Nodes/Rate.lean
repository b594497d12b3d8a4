import Mathlib.Tactic.ByContra
import Mathlib.Tactic.SplitIfs
import ProxyFleet.Nodes.Basic

/-!
# Rates that count traffic

A rate is stored as it is if it counts traffic, and else as one. The text of a node tells the two apart:
no other rate is written as one is.

* `Counts` : the rate counts traffic;
* `normalizeRate_eq_self_iff` : it is then what is stored;
* `Binary64.jsonText_ne_one` : a number that is not positive is not written as one;
* `Node.snapshot_normalizeRate_eq_iff` : whether the text of a node is the text of the stored one.
-/

namespace ProxyFleet

set_option autoImplicit false

/-- The rate counts traffic. -/
def Counts (rate : Binary64) : Prop := rate.isFinite = true ∧ rate.isPositive = true

theorem counts_normalizeRate (rate : Binary64) : Counts (normalizeRate rate) := by
  unfold normalizeRate
  split_ifs with hcounts
  · exact Bool.and_eq_true_iff.1 hcounts
  · exact ⟨by decide, by decide⟩

theorem normalizeRate_eq_self_iff {rate : Binary64} : normalizeRate rate = rate ↔ Counts rate := by
  constructor
  · intro heq
    exact heq ▸ counts_normalizeRate rate
  · rintro ⟨hfinite, hpositive⟩
    rw [normalizeRate, hfinite, hpositive]
    rfl

theorem normalizeRate_of_not_counts {rate : Binary64} (h : ¬Counts rate) : normalizeRate rate = Binary64.one := by
  rw [normalizeRate, if_neg]
  rwa [Bool.and_eq_true_iff]

/-! ## Text -/

/-- A number below zero is written with its sign first. -/
theorem Binary64.exists_jsonText_of_isNegative {x : Binary64} (h : x.isNegative = true) :
    ∃ s, x.jsonText = "-" ++ s := by
  unfold jsonText
  rw [if_pos h]
  dsimp only
  split_ifs
  · exact ⟨_, rfl⟩
  all_goals
    simp only [String.append_assoc]
    exact ⟨_, rfl⟩

theorem Binary64.isNaN_of_isFinite {x : Binary64} (h : x.isFinite = true) : x.isNaN = false := by
  have hlt : x.exponentField < 2047 := by simpa [isFinite] using h
  have hne : x.exponentField ≠ 2047 := by omega
  simp [isNaN, hne]

theorem Binary64.jsonText_ne_one {x : Binary64} (hfinite : x.isFinite = true) (hx : x.isPositive = false) :
    x.jsonText ≠ Binary64.one.jsonText := by
  have hone : Binary64.one.jsonText = "1.0" := by decide +kernel
  rw [hone]
  by_cases hnegative : x.isNegative = true
  · obtain ⟨s, hs⟩ := exists_jsonText_of_isNegative hnegative
    intro heq
    have hchars := congrArg String.toList (hs.symm.trans heq)
    rw [String.toList_append] at hchars
    simp at hchars
  · have hzero : x.isZero = true := by simpa [isPositive, isNaN_of_isFinite hfinite, hnegative] using hx
    rw [jsonText, if_pos hzero, if_neg hnegative]
    decide

/-- The text of a rate tells one that counts traffic from what stands in place of any other. -/
theorem compactChars_normalizeRate_eq_iff {rate : Binary64} :
    (Json.float rate).compactChars = (Json.float (normalizeRate rate)).compactChars ↔ Counts rate := by
  constructor
  · intro heq
    by_contra hcounts
    rw [normalizeRate_of_not_counts hcounts] at heq
    unfold Json.float at heq
    have hone : Binary64.one.isFinite = true := by decide
    rw [if_pos hone] at heq
    by_cases hfinite : rate.isFinite = true
    · rw [if_pos hfinite] at heq
      have hpositive : rate.isPositive = false := by simpa [Counts, hfinite] using hcounts
      exact Binary64.jsonText_ne_one hfinite hpositive (String.toList_injective heq)
    · rw [if_neg hfinite] at heq
      exact absurd heq (by decide +kernel)
  · intro hcounts
    rw [normalizeRate_eq_self_iff.2 hcounts]

/-- The last field of an object stands behind what does not depend on its value. -/
theorem Json.exists_compactFields_append (fields : JsonFields) (key : String) :
    ∃ before, ∀ v, compactFields (fields ++ [(key, v)]) = before ++ compactChars v := by
  induction fields with
  | nil => exact ⟨quotedChars key ++ [':'], fun v => by simp [compactFields]⟩
  | cons f fields ih =>
    obtain ⟨before, hbefore⟩ := ih
    refine ⟨quotedChars f.1 ++ ':' :: (compactChars f.2 ++ ',' :: before), fun v => ?_⟩
    have hcons : compactFields (f :: fields ++ [(key, v)]) =
        quotedChars f.1 ++ ':' :: (compactChars f.2 ++ ',' :: compactFields (fields ++ [(key, v)])) := by
      cases fields with
      | _ => rfl
    rw [hcons, hbefore]
    simp

theorem Node.snapshot_normalizeRate_eq_iff (n : Node) :
    n.snapshot = { n with rate := normalizeRate n.rate }.snapshot ↔ Counts n.rate := by
  obtain ⟨before, hbefore⟩ := Json.exists_compactFields_append
    [("group_ids", .ints n.groups), ("host", .str n.host), ("name", .str n.name), ("params", n.params.canonical),
      ("port", .nat n.port.toNat), ("protocol", .str n.protocolName)] "rate"
  have htext : ∀ rate, { n with rate }.snapshot =
      String.ofList ('{' :: (before ++ (Json.float rate).compactChars ++ ['}'])) := by
    intro rate
    rw [← hbefore]
    rfl
  have hn : n.snapshot = { n with rate := n.rate }.snapshot := rfl
  rw [← compactChars_normalizeRate_eq_iff, hn, htext, htext, String.ofList_inj]
  simp

end ProxyFleet
