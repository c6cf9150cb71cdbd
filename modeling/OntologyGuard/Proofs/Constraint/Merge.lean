import OntologyGuard.Constraint.Property
import Mathlib.Tactic.ByContra

/-!
Merging a child's constraints with a parent's. A merge only fills in fields, it never makes bounds
cross, it is silent exactly when the result is no weaker than the parent, and a second merge with the
same parent finds nothing new.
-/

namespace OntologyGuard.PropertyConstraints

variable {c d e parent : PropertyConstraints}

/-- Some number of values meets both bounds. -/
def Uncrossed (c : PropertyConstraints) : Prop :=
  ∀ low high, c.min = some low → c.max = some high → low ≤ high

/-- What the parent requires follows from `c`, field by field. -/
structure AtLeastAsTight (c parent : PropertyConstraints) : Prop where
  min : ∀ m, parent.min = some m → ∃ k, c.min = some k ∧ m ≤ k
  max : ∀ m, parent.max = some m → ∃ k, c.max = some k ∧ k ≤ m
  range : ∀ r, parent.range = some r → c.range = some r

/-- The fields that `c` sets have the same values in `d`. -/
structure Extends (d c : PropertyConstraints) : Prop where
  min : ∀ m, c.min = some m → d.min = some m
  max : ∀ m, c.max = some m → d.max = some m
  range : ∀ r, c.range = some r → d.range = some r

/-- Set fields of a child and a parent that keep the child weaker, whatever else gets filled in. -/
inductive Clash (c parent : PropertyConstraints) : Prop
  | lowerMin {k m : UInt32} (own : c.min = some k) (inherited : parent.min = some m) (h : k < m)
  | higherMax {k m : UInt32} (own : c.max = some k) (inherited : parent.max = some m) (h : m < k)
  | otherRange {r s : Iri} (own : c.range = some r) (inherited : parent.range = some s) (h : s ≠ r)
  | minAboveMax {k m : UInt32} (own : c.max = some k) (inherited : parent.min = some m) (h : k < m)
  | maxBelowMin {k m : UInt32} (own : c.min = some k) (inherited : parent.max = some m) (h : m < k)

theorem crossed_eq_false_iff : c.crossed = false ↔ c.Uncrossed := by
  unfold crossed Uncrossed
  cases c.min <;> cases c.max <;> simp

theorem or_ne_left_iff {α : Type} {own inherited : Option α} :
    own.or inherited ≠ own ↔ own = none ∧ ∃ a, inherited = some a := by
  cases own <;> cases inherited <;> simp

theorem Extends.refl (c : PropertyConstraints) : c.Extends c :=
  ⟨fun _ h ↦ h, fun _ h ↦ h, fun _ h ↦ h⟩

theorem Extends.trans (h : e.Extends d) (h' : d.Extends c) : e.Extends c :=
  ⟨fun m hm ↦ h.min m (h'.min m hm), fun m hm ↦ h.max m (h'.max m hm),
    fun r hr ↦ h.range r (h'.range r hr)⟩

theorem AtLeastAsTight.refl (c : PropertyConstraints) : c.AtLeastAsTight c :=
  ⟨fun m h ↦ ⟨m, h, UInt32.le_refl m⟩, fun m h ↦ ⟨m, h, UInt32.le_refl m⟩, fun _ h ↦ h⟩

theorem AtLeastAsTight.trans (h : e.AtLeastAsTight d) (h' : d.AtLeastAsTight c) :
    e.AtLeastAsTight c where
  min m hm := by
    obtain ⟨k, hk, hmk⟩ := h'.min m hm
    obtain ⟨l, hl, hkl⟩ := h.min k hk
    exact ⟨l, hl, UInt32.le_trans hmk hkl⟩
  max m hm := by
    obtain ⟨k, hk, hkm⟩ := h'.max m hm
    obtain ⟨l, hl, hlk⟩ := h.max k hk
    exact ⟨l, hl, UInt32.le_trans hlk hkm⟩
  range r hr := h.range r (h'.range r hr)

theorem Clash.mono {c' parent' : PropertyConstraints} (h : c.Clash parent) (hc : c'.Extends c)
    (hp : parent'.Extends parent) : c'.Clash parent' := by
  cases h with
  | lowerMin own inherited h => exact .lowerMin (hc.min _ own) (hp.min _ inherited) h
  | higherMax own inherited h => exact .higherMax (hc.max _ own) (hp.max _ inherited) h
  | otherRange own inherited h => exact .otherRange (hc.range _ own) (hp.range _ inherited) h
  | minAboveMax own inherited h => exact .minAboveMax (hc.max _ own) (hp.min _ inherited) h
  | maxBelowMin own inherited h => exact .maxBelowMin (hc.min _ own) (hp.max _ inherited) h

theorem Clash.not_atLeastAsTight (h : c.Clash parent) (hc : c.Uncrossed) :
    ¬ c.AtLeastAsTight parent := by
  intro ht
  cases h with
  | lowerMin own inherited h =>
    obtain ⟨k, hk, hle⟩ := ht.min _ inherited
    grind
  | higherMax own inherited h =>
    obtain ⟨k, hk, hle⟩ := ht.max _ inherited
    grind
  | otherRange own inherited h =>
    have hr := ht.range _ inherited
    grind
  | minAboveMax own inherited h =>
    obtain ⟨k, hk, hle⟩ := ht.min _ inherited
    have hcross := hc _ _ hk own
    grind
  | maxBelowMin own inherited h =>
    obtain ⟨k, hk, hle⟩ := ht.max _ inherited
    have hcross := hc _ _ own hk
    grind

/-- The bounds that the parent would fill in cross. -/
def Refuses (c parent : PropertyConstraints) : Prop :=
  ((c.fill parent).min ≠ c.min ∨ (c.fill parent).max ≠ c.max) ∧ (c.fill parent).crossed = true

instance : Decidable (c.Refuses parent) := inferInstanceAs (Decidable (_ ∧ _))

theorem mergeParent_of_refuses (h : c.Refuses parent) :
    c.mergeParent parent =
      ({ c.fill parent with min := c.min, max := c.max },
        (c.conflicts parent).map c.report ++ [c.report (.crossing parent.originOf)]) :=
  if_pos h

theorem mergeParent_of_not_refuses (h : ¬ c.Refuses parent) :
    c.mergeParent parent = (c.fill parent, (c.conflicts parent).map c.report) :=
  if_neg h

theorem mergeParent_class (c parent : PropertyConstraints) :
    (c.mergeParent parent).1.class = c.class := by
  by_cases h : c.Refuses parent
  · rw [mergeParent_of_refuses h]; rfl
  · rw [mergeParent_of_not_refuses h]; rfl

theorem mergeParent_property (c parent : PropertyConstraints) :
    (c.mergeParent parent).1.property = c.property := by
  by_cases h : c.Refuses parent
  · rw [mergeParent_of_refuses h]; rfl
  · rw [mergeParent_of_not_refuses h]; rfl

theorem fill_extends (c parent : PropertyConstraints) : (c.fill parent).Extends c := by
  constructor <;> intro m hm <;> simp [fill, hm]

theorem mergeParent_extends (c parent : PropertyConstraints) :
    (c.mergeParent parent).1.Extends c := by
  by_cases h : c.Refuses parent
  · rw [mergeParent_of_refuses h]
    exact ⟨fun _ hm ↦ hm, fun _ hm ↦ hm, (fill_extends c parent).range⟩
  · rw [mergeParent_of_not_refuses h]
    exact fill_extends c parent

theorem mergeParent_uncrossed (hc : c.Uncrossed) : (c.mergeParent parent).1.Uncrossed := by
  by_cases h : c.Refuses parent
  · rw [mergeParent_of_refuses h]
    exact hc
  · rw [mergeParent_of_not_refuses h]
    by_cases hsame : (c.fill parent).min = c.min ∧ (c.fill parent).max = c.max
    · intro low high hlow hhigh
      exact hc low high (hsame.1 ▸ hlow) (hsame.2 ▸ hhigh)
    · rw [← crossed_eq_false_iff]
      simp only [Refuses, not_and, Bool.not_eq_true] at h
      exact h (by grind)

/-- What a merge reports: the child's own fields that the parent's contradict, and bounds that cannot be
filled in. -/
theorem mem_mergeParent {r : Diagnostic} : r ∈ (c.mergeParent parent).2 ↔
    (∃ conflict ∈ c.conflicts parent, r = c.report conflict) ∨
      c.Refuses parent ∧ r = c.report (.crossing parent.originOf) := by
  by_cases h : c.Refuses parent
  · simp [mergeParent_of_refuses h, h, eq_comm]
  · simp [mergeParent_of_not_refuses h, h, eq_comm]

theorem mergeParent_eq_nil_iff :
    (c.mergeParent parent).2 = [] ↔ c.conflicts parent = [] ∧ ¬ c.Refuses parent := by
  by_cases h : c.Refuses parent
  · simp [mergeParent_of_refuses h, h]
  · simp [mergeParent_of_not_refuses h, h]

theorem label_of_mem_mergeParent {r : Diagnostic} (h : r ∈ (c.mergeParent parent).2) :
    r.kind = .ontologyError ∧ r.class = c.class ∧ r.property = c.property := by
  rcases mem_mergeParent.1 h with ⟨conflict, -, rfl⟩ | ⟨-, rfl⟩
  · exact ⟨rfl, rfl, rfl⟩
  · exact ⟨rfl, rfl, rfl⟩

theorem conflicts_eq_nil_iff :
    c.conflicts parent = [] ↔
      (∀ k m, c.min = some k → parent.min = some m → m ≤ k) ∧
      (∀ k m, c.max = some k → parent.max = some m → k ≤ m) ∧
      (∀ r s, c.range = some r → parent.range = some s → s = r) := by
  simp only [conflicts, List.append_eq_nil_iff, and_assoc]
  refine and_congr ?_ (and_congr ?_ ?_)
  · cases c.min <;> cases parent.min <;> simp
  · cases c.max <;> cases parent.max <;> simp
  · cases c.range <;> cases parent.range <;> simp

theorem clash_of_conflicts_ne_nil (h : c.conflicts parent ≠ []) : c.Clash parent := by
  by_contra hno
  refine h (conflicts_eq_nil_iff.2 ⟨fun k m hk hm ↦ ?_, fun k m hk hm ↦ ?_, fun r s hr hs ↦ ?_⟩)
  · exact UInt32.not_lt.1 fun hlt ↦ hno (.lowerMin hk hm hlt)
  · exact UInt32.not_lt.1 fun hlt ↦ hno (.higherMax hk hm hlt)
  · by_contra hne
    exact hno (.otherRange hr hs hne)

/-- Bounds that cross come from both sides, as the parent's own bounds do not cross. -/
theorem refuses_iff (hp : parent.Uncrossed) :
    c.Refuses parent ↔
      (∃ low high, c.min = none ∧ parent.min = some low ∧ c.max = some high ∧ high < low) ∨
      (∃ low high, c.max = none ∧ c.min = some low ∧ parent.max = some high ∧ high < low) := by
  unfold Refuses fill crossed
  cases hmin : c.min <;> cases hmax : c.max <;> cases hlow : parent.min <;>
    cases hhigh : parent.max <;> simp
  exact hp _ _ hlow hhigh

theorem clash_of_refuses (h : c.Refuses parent) (hp : parent.Uncrossed) : c.Clash parent := by
  rcases (refuses_iff hp).1 h with ⟨low, high, -, hlow, hhigh, hlt⟩ |
    ⟨low, high, -, hlow, hhigh, hlt⟩
  · exact .minAboveMax hhigh hlow hlt
  · exact .maxBelowMin hlow hhigh hlt

theorem clash_of_mem_mergeParent {r : Diagnostic} (h : r ∈ (c.mergeParent parent).2)
    (hp : parent.Uncrossed) : c.Clash parent := by
  rcases mem_mergeParent.1 h with ⟨conflict, hmem, -⟩ | ⟨hrefuses, -⟩
  · exact clash_of_conflicts_ne_nil (List.ne_nil_of_mem hmem)
  · exact clash_of_refuses hrefuses hp

theorem mergeParent_atLeastAsTight (h : (c.mergeParent parent).2 = []) :
    (c.mergeParent parent).1.AtLeastAsTight parent := by
  obtain ⟨hnone, hr⟩ := mergeParent_eq_nil_iff.1 h
  obtain ⟨hmin, hmax, hrange⟩ := conflicts_eq_nil_iff.1 hnone
  rw [mergeParent_of_not_refuses hr]
  constructor
  · intro m hm
    cases hk : c.min with
    | none => exact ⟨m, by simp [fill, hk, hm], UInt32.le_refl m⟩
    | some k => exact ⟨k, by simp [fill, hk], hmin k m hk hm⟩
  · intro m hm
    cases hk : c.max with
    | none => exact ⟨m, by simp [fill, hk, hm], UInt32.le_refl m⟩
    | some k => exact ⟨k, by simp [fill, hk], hmax k m hk hm⟩
  · intro r hr
    cases hk : c.range with
    | none => simp [fill, hk, hr]
    | some s => simp [fill, hk, hrange s r hk hr]

theorem conflicts_eq_nil_of_atLeastAsTight (hd : d.Extends c) (h : d.AtLeastAsTight parent) :
    c.conflicts parent = [] := by
  refine conflicts_eq_nil_iff.2 ⟨fun k m hk hm ↦ ?_, fun k m hk hm ↦ ?_, fun r s hr hs ↦ ?_⟩
  · obtain ⟨l, hl, hle⟩ := h.min m hm
    cases (hd.min k hk).symm.trans hl
    exact hle
  · obtain ⟨l, hl, hle⟩ := h.max m hm
    cases (hd.max k hk).symm.trans hl
    exact hle
  · exact Option.some.inj ((h.range s hs).symm.trans (hd.range r hr))

theorem Refuses.not_atLeastAsTight (h : c.Refuses parent) :
    ¬ (c.mergeParent parent).1.AtLeastAsTight parent := by
  rw [mergeParent_of_refuses h]
  intro htight
  rcases h.1 with hmin | hmax
  · obtain ⟨hnone, m, hm⟩ := or_ne_left_iff.1 hmin
    obtain ⟨k, hk, -⟩ := htight.min m hm
    cases hnone.symm.trans hk
  · obtain ⟨hnone, m, hm⟩ := or_ne_left_iff.1 hmax
    obtain ⟨k, hk, -⟩ := htight.max m hm
    cases hnone.symm.trans hk

/-- The fields that `c` sets stay; an unset range becomes the parent's, and an unset bound becomes the
parent's or stays unset. -/
structure FilledFrom (d c parent : PropertyConstraints) : Prop extends d.Extends c where
  unsetMin : c.min = none → d.min = parent.min ∨ d.min = none
  unsetMax : c.max = none → d.max = parent.max ∨ d.max = none
  unsetRange : c.range = none → d.range = parent.range

theorem mergeParent_filledFrom (c parent : PropertyConstraints) :
    (c.mergeParent parent).1.FilledFrom c parent := by
  have hextends := mergeParent_extends c parent
  by_cases h : c.Refuses parent
  · rw [mergeParent_of_refuses h] at hextends ⊢
    exact ⟨hextends, .inr, .inr, fun hnone ↦ by simp [fill, hnone]⟩
  · rw [mergeParent_of_not_refuses h] at hextends ⊢
    exact ⟨hextends, fun hnone ↦ .inl (by simp [fill, hnone]),
      fun hnone ↦ .inl (by simp [fill, hnone]), fun hnone ↦ by simp [fill, hnone]⟩

/-- A merge only fills in fields, and it is silent exactly when the result is no weaker than the
parent, crossing bounds on either side included. -/
theorem mergeParent_silent_iff_atLeastAsTight (c parent : PropertyConstraints) :
    (c.mergeParent parent).1.FilledFrom c parent ∧
      ((c.mergeParent parent).2 = [] ↔ (c.mergeParent parent).1.AtLeastAsTight parent) := by
  refine ⟨mergeParent_filledFrom c parent, mergeParent_atLeastAsTight, fun htight ↦ ?_⟩
  have hnone := conflicts_eq_nil_of_atLeastAsTight (mergeParent_extends c parent) htight
  exact mergeParent_eq_nil_iff.2 ⟨hnone, fun hrefuses ↦ hrefuses.not_atLeastAsTight htight⟩

theorem conflicts_fill (c parent : PropertyConstraints) :
    (c.fill parent).conflicts parent = c.conflicts parent := by
  unfold conflicts fill
  refine congrArg₂ (· ++ ·) (congrArg₂ (· ++ ·) ?_ ?_) ?_
  · cases c.min <;> cases parent.min <;> simp
  · cases c.max <;> cases parent.max <;> simp
  · cases c.range <;> cases parent.range <;> simp

theorem fill_mergeParent (c parent : PropertyConstraints) :
    (c.mergeParent parent).1.fill parent = c.fill parent := by
  by_cases h : c.Refuses parent
  · simp [mergeParent_of_refuses h, fill, Option.or_assoc]
  · simp [mergeParent_of_not_refuses h, fill, Option.or_assoc]

theorem conflicts_mergeParent (c parent : PropertyConstraints) :
    (c.mergeParent parent).1.conflicts parent = c.conflicts parent := by
  rw [← conflicts_fill, fill_mergeParent, conflicts_fill]

theorem refuses_mergeParent (c parent : PropertyConstraints) :
    (c.mergeParent parent).1.Refuses parent ↔ c.Refuses parent := by
  by_cases h : c.Refuses parent
  · unfold Refuses
    rw [fill_mergeParent, mergeParent_of_refuses h]
  · refine iff_of_false ?_ h
    rintro ⟨hnew, -⟩
    rw [fill_mergeParent, mergeParent_of_not_refuses h] at hnew
    simp at hnew

theorem report_mergeParent (c parent : PropertyConstraints) :
    (c.mergeParent parent).1.report = c.report := by
  funext conflict
  rw [report, report, mergeParent_class, mergeParent_property]

theorem fst_mergeParent_again (c parent : PropertyConstraints) :
    ((c.mergeParent parent).1.mergeParent parent).1 = (c.mergeParent parent).1 := by
  by_cases h : c.Refuses parent
  · rw [mergeParent_of_refuses ((refuses_mergeParent c parent).2 h), fill_mergeParent,
      mergeParent_of_refuses h]
  · rw [mergeParent_of_not_refuses (mt (refuses_mergeParent c parent).1 h), fill_mergeParent,
      mergeParent_of_not_refuses h]

theorem snd_mergeParent_again (c parent : PropertyConstraints) :
    ((c.mergeParent parent).1.mergeParent parent).2 = (c.mergeParent parent).2 := by
  by_cases h : c.Refuses parent
  · rw [mergeParent_of_refuses ((refuses_mergeParent c parent).2 h), conflicts_mergeParent,
      report_mergeParent, mergeParent_of_refuses h]
  · rw [mergeParent_of_not_refuses (mt (refuses_mergeParent c parent).1 h), conflicts_mergeParent,
      report_mergeParent, mergeParent_of_not_refuses h]

/-- Merging with the same parent again gives the same constraints and the same reports. -/
theorem mergeParent_mergeParent (c parent : PropertyConstraints) :
    (c.mergeParent parent).1.mergeParent parent = c.mergeParent parent :=
  Prod.ext (fst_mergeParent_again c parent) (snd_mergeParent_again c parent)

end OntologyGuard.PropertyConstraints
