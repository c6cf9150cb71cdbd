import OntologyGuard.Proofs.Inheritance.Invariant

namespace OntologyGuard

namespace PropertyConstraints

variable {c d inherited : PropertyConstraints}

theorem or_eq_left_iff {α : Type} {own inherited : Option α} :
    own.or inherited = own ↔ (own = none → inherited = none) := by
  cases own <;> simp

theorem eq_none_of_imp {α : Type} {own later : Option α}
    (h : ∀ a, own = some a → later = some a) (hlater : later = none) : own = none := by
  cases own with
  | none => rfl
  | some a => cases (h a rfl).symm.trans hlater

/-- Nothing changes when the constraints of a parent come in. -/
def Absorbs (c inherited : PropertyConstraints) : Prop :=
  (c.mergeParent inherited).1.agrees c = true

theorem absorbs_iff :
    c.Absorbs inherited ↔ (c.range = none → inherited.range = none) ∧
      (c.Refuses inherited ∨
        (c.min = none → inherited.min = none) ∧ (c.max = none → inherited.max = none)) := by
  unfold Absorbs
  rw [agrees_iff]
  by_cases h : c.Refuses inherited
  · rw [mergeParent_of_refuses h]
    simp [fill, h, or_eq_left_iff]
  · rw [mergeParent_of_not_refuses h]
    simp only [fill, h, or_eq_left_iff, true_and, false_or]
    tauto

theorem absorbs_relabel (inherited : PropertyConstraints) («class» : Iri) :
    (inherited.relabel «class»).Absorbs inherited :=
  absorbs_iff.2 ⟨id, .inr ⟨id, id⟩⟩

theorem mergeParent_absorbs (c inherited : PropertyConstraints) :
    (c.mergeParent inherited).1.Absorbs inherited := by
  rw [Absorbs, fst_mergeParent_again]
  exact agrees_iff.2 ⟨rfl, rfl, rfl, rfl, rfl⟩

/-- A bound that crosses the child's other bound is refused for good. -/
theorem Extends.absorbs (hd : d.Extends c) (hinherited : inherited.Uncrossed)
    (h : c.Absorbs inherited) : d.Absorbs inherited := by
  rw [absorbs_iff] at h ⊢
  obtain ⟨hrange, hbounds⟩ := h
  refine ⟨fun hnone ↦ hrange (eq_none_of_imp hd.range hnone), ?_⟩
  rw [refuses_iff hinherited] at hbounds ⊢
  rcases hbounds with (⟨low, high, hmin, hlow, hhigh, hlt⟩ | ⟨low, high, hmax, hlow, hhigh, hlt⟩) |
    ⟨hmin, hmax⟩
  · have hmax := hd.max high hhigh
    cases hfilled : d.min with
    | none => exact .inl (.inl ⟨low, high, rfl, hlow, hmax, hlt⟩)
    | some m => simp [hmax]
  · have hmin := hd.min low hlow
    cases hfilled : d.max with
    | none => exact .inl (.inr ⟨low, high, rfl, hmin, hhigh, hlt⟩)
    | some m => simp [hmin]
  · exact .inr ⟨fun hnone ↦ hmin (eq_none_of_imp hd.min hnone),
      fun hnone ↦ hmax (eq_none_of_imp hd.max hnone)⟩

end PropertyConstraints

namespace ClassConstraints

variable {child parent : ClassConstraints}

theorem absorbs_handedDown («class» : Iri) (own : Option PropertyConstraints)
    (inherited : PropertyConstraints) : (handedDown «class» own inherited).Absorbs inherited := by
  unfold handedDown
  cases own with
  | none => exact inherited.absorbs_relabel «class»
  | some c =>
    by_cases h : (c.mergeParent inherited).1.agrees c = true
    · simp only [if_pos h]
      exact h
    · simp only [if_neg h]
      exact c.mergeParent_absorbs inherited

theorem foldl_mergeProperty_eq {entries : List (Iri × PropertyConstraints)} (state : Merge)
    (h : ∀ entry ∈ entries, settled (state.child.get? entry.1) entry.2 = true) :
    (entries.foldl mergeProperty state).child = state.child ∧
      (entries.foldl mergeProperty state).changes = state.changes := by
  induction entries generalizing state with
  | nil => exact ⟨rfl, rfl⟩
  | cons entry rest ih =>
    obtain ⟨hentry, hrest⟩ := List.forall_mem_cons.1 h
    rw [List.foldl_cons, mergeProperty_eq, if_pos hentry]
    exact ih _ hrest

theorem mergeParent_eq (h : ∀ p inherited, parent.get? p = some inherited →
    ∃ own, child.get? p = some own ∧ own.Absorbs inherited) :
    (child.mergeParent parent).child = child ∧ (child.mergeParent parent).changes = 0 := by
  refine foldl_mergeProperty_eq { child } fun entry hentry ↦ settled_iff.2 ?_
  exact h entry.1 entry.2 (OrderedMap.get?_eq_some_iff.2 hentry)

end ClassConstraints

namespace Inheritance.Pass

variable {definitions later : Definitions} {pass : Pass} {edge : Iri × Iri}

theorem get?_inherit_of_ne {iri : Iri} (h : iri ≠ edge.2) :
    (pass.inherit edge).definitions.get? iri = pass.definitions.get? iri := by
  rcases inherit_cases pass edge with ⟨-, he⟩ | ⟨parent, own, -, -, he⟩ | ⟨parent, -, -, he⟩
  · rw [he]
  · rw [he, OrderedMap.get?_insert, if_neg h]
  · rw [he, OrderedMap.get?_insert, if_neg h]

theorem inherit_of_datatype {words : DatatypeConstraints}
    (h : pass.definitions.get? edge.2 = some (.datatype words)) : pass.inherit edge = pass := by
  unfold inherit inheritFrom
  split
  · rw [h]
  · rfl

theorem Settled.congr (h : Settled definitions edge)
    (hparent : later.get? edge.1 = definitions.get? edge.1)
    (hchild : later.get? edge.2 = definitions.get? edge.2) : Settled later edge := by
  unfold Settled Definitions.restricted? at h ⊢
  rw [hparent, hchild]
  exact h

theorem Settled.inherit_eq (h : Settled pass.definitions edge) :
    (pass.inherit edge).definitions = pass.definitions ∧
      (pass.inherit edge).changes = pass.changes := by
  rcases inherit_cases pass edge with ⟨-, he⟩ | ⟨parent, own, hparent, hown, he⟩ |
    ⟨parent, hparent, hnone, he⟩
  · rw [he]
    exact ⟨rfl, rfl⟩
  · rcases h parent hparent with ⟨words, hwords⟩ | ⟨child, hchild, hall⟩
    · rw [inherit_of_datatype hwords]
      exact ⟨rfl, rfl⟩
    · obtain rfl := Option.some.inj (hchild.symm.trans hown)
      obtain ⟨hsame, hzero⟩ := ClassConstraints.mergeParent_eq hall
      rw [he, hsame, hzero]
      exact ⟨OrderedMap.insert_eq_self (Definitions.restricted?_eq_some_iff.1 hown), rfl⟩
  · rcases h parent hparent with ⟨words, hwords⟩ | ⟨child, hchild, -⟩
    · rw [inherit_of_datatype hwords]
      exact ⟨rfl, rfl⟩
    · cases hnone.symm.trans hchild

/-- A step settles its edge. -/
theorem settled_inherit (hne : edge.1 ≠ edge.2) :
    Settled (pass.inherit edge).definitions edge := by
  intro parent hparent
  unfold Definitions.restricted? at hparent
  rw [get?_inherit_of_ne hne] at hparent
  rcases inherit_cases pass edge with ⟨hnothing, he⟩ | ⟨parent', own, hparent', hown, he⟩ |
    ⟨parent', hparent', hnone, he⟩
  · rw [he]
    rcases hnothing with hnone | hwords
    · cases hnone.symm.trans hparent
    · exact .inl hwords
  · obtain rfl := Option.some.inj (hparent'.symm.trans hparent)
    refine .inr ⟨(own.mergeParent parent').child, ?_, fun p inherited hinherited ↦ ?_⟩
    · rw [he, Definitions.restricted?_insert, if_pos rfl]
    · refine ⟨ClassConstraints.handedDown own.class (own.get? p) inherited, ?_, ?_⟩
      · rw [ClassConstraints.get?_mergeParent, hinherited]
      · exact ClassConstraints.absorbs_handedDown _ _ _
  · obtain rfl := Option.some.inj (hparent'.symm.trans hparent)
    refine .inr ⟨parent'.relabel edge.2, ?_, fun p inherited hinherited ↦ ?_⟩
    · rw [he, Definitions.restricted?_insert, if_pos rfl]
    · refine ⟨inherited.relabel edge.2, ?_, inherited.absorbs_relabel edge.2⟩
      rw [ClassConstraints.get?_relabel, hinherited]
      rfl

theorem Settled.inherit (h : Settled pass.definitions edge) (huncrossed : pass.definitions.Uncrossed)
    {other : Iri × Iri}
    (hparent : (pass.inherit other).definitions.get? edge.1 = pass.definitions.get? edge.1) :
    Settled (pass.inherit other).definitions edge := by
  intro parent hrestricted
  unfold Definitions.restricted? at hrestricted
  rw [hparent] at hrestricted
  rcases h parent hrestricted with ⟨words, hwords⟩ | ⟨own, hown, hall⟩
  · left
    by_cases heq : edge.2 = other.2
    · rw [inherit_of_datatype (heq ▸ hwords)]
      exact ⟨words, hwords⟩
    · exact ⟨words, (get?_inherit_of_ne heq).trans hwords⟩
  · right
    obtain ⟨own', hown', hextends⟩ := inherit_extends pass other _ _ hown
    refine ⟨own', hown', fun p inherited hinherited ↦ ?_⟩
    obtain ⟨c, hc, habsorbs⟩ := hall p inherited hinherited
    obtain ⟨c', hc', hext⟩ := hextends p c hc
    exact ⟨c', hc', hext.absorbs (huncrossed _ _ hrestricted _ _ hinherited) habsorbs⟩

end Inheritance.Pass

end OntologyGuard
