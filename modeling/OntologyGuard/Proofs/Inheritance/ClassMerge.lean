import OntologyGuard.Ontology.Inheritance
import OntologyGuard.Proofs.Constraint.Merge
import OntologyGuard.Proofs.Data.OrderedMap

namespace OntologyGuard

theorem PropertyConstraints.agrees_iff {c d : PropertyConstraints} :
    c.agrees d = true ↔ c.class = d.class ∧ c.property = d.property ∧ c.min = d.min ∧
      c.max = d.max ∧ c.range = d.range := by
  simp [agrees, plain]

theorem PropertyConstraints.mergeParent_self (c : PropertyConstraints) :
    c.mergeParent c = (c.plain, []) := by
  have hfill : c.fill c = c.plain := by simp [fill, plain]
  have hno : ¬ c.Refuses c := by
    rintro ⟨hnew, -⟩
    simp [fill] at hnew
  have hnil : c.conflicts c = [] :=
    conflicts_eq_nil_iff.2 ⟨by grind, by grind, by grind⟩
  rw [mergeParent_of_not_refuses hno, hfill, hnil, List.map_nil]

namespace ClassConstraints

variable {c child parent : ClassConstraints} {p q : Iri} {pc : PropertyConstraints}

@[simp] theorem get?_set (c : ClassConstraints) (p : Iri) (pc : PropertyConstraints) (q : Iri) :
    (c.set p pc).get? q = if q = p then some pc else c.get? q :=
  OrderedMap.get?_insert c.properties p pc q

@[simp] theorem get?_relabel (c : ClassConstraints) («class» p : Iri) :
    (c.relabel «class»).get? p = (c.get? p).map (·.relabel «class») :=
  OrderedMap.get?_mapValues _ c.properties p

/-- What a child requires of a property after its parent's constraints on it came in. -/
def handedDown («class» : Iri) (own : Option PropertyConstraints)
    (inherited : PropertyConstraints) : PropertyConstraints :=
  match own with
  | none => inherited.relabel «class»
  | some own =>
    if (own.mergeParent inherited).1.agrees own then own else (own.mergeParent inherited).1

/-- Whether a child already has all of a parent's constraints on a property that it can take. -/
def settled (own : Option PropertyConstraints) (inherited : PropertyConstraints) : Bool :=
  own.any fun own ↦ (own.mergeParent inherited).1.agrees own

def complaints (own : Option PropertyConstraints) (inherited : PropertyConstraints) :
    List Diagnostic :=
  (own.map fun own ↦ (own.mergeParent inherited).2).getD []

theorem settled_iff {own : Option PropertyConstraints} {inherited : PropertyConstraints} :
    settled own inherited = true ↔
      ∃ c, own = some c ∧ (c.mergeParent inherited).1.agrees c = true := by
  cases own <;> simp [settled]

theorem handedDown_extends (own : PropertyConstraints) («class» : Iri)
    (inherited : PropertyConstraints) : (handedDown «class» (some own) inherited).Extends own := by
  unfold handedDown
  by_cases h : (own.mergeParent inherited).1.agrees own = true
  · simpa only [if_pos h] using PropertyConstraints.Extends.refl own
  · simpa only [if_neg h] using PropertyConstraints.mergeParent_extends own inherited

theorem handedDown_uncrossed {own : Option PropertyConstraints} {inherited : PropertyConstraints}
    (hown : ∀ c, own = some c → c.Uncrossed) (hinherited : inherited.Uncrossed) («class» : Iri) :
    (handedDown «class» own inherited).Uncrossed := by
  unfold handedDown
  cases own with
  | none => exact hinherited
  | some c =>
    by_cases h : (c.mergeParent inherited).1.agrees c = true
    · simpa only [if_pos h] using hown c rfl
    · simpa only [if_neg h] using PropertyConstraints.mergeParent_uncrossed (hown c rfl)

theorem handedDown_label {own : Option PropertyConstraints} {inherited : PropertyConstraints}
    {«class» p : Iri} (hown : ∀ c, own = some c → c.class = some «class» ∧ c.property = some p)
    (hinherited : inherited.property = some p) :
    (handedDown «class» own inherited).class = some «class» ∧
      (handedDown «class» own inherited).property = some p := by
  unfold handedDown
  cases own with
  | none => exact ⟨rfl, hinherited⟩
  | some c =>
    by_cases h : (c.mergeParent inherited).1.agrees c = true
    · simpa only [if_pos h] using hown c rfl
    · simpa only [if_neg h, PropertyConstraints.mergeParent_class,
        PropertyConstraints.mergeParent_property] using hown c rfl

theorem mergeProperty_eq (state : Merge) (entry : Iri × PropertyConstraints) :
    mergeProperty state entry =
      if settled (state.child.get? entry.1) entry.2 then
        { state with
          diagnostics := state.diagnostics ++ complaints (state.child.get? entry.1) entry.2 }
      else
        { child := state.child.set entry.1
            (handedDown state.child.class (state.child.get? entry.1) entry.2)
          diagnostics := state.diagnostics ++ complaints (state.child.get? entry.1) entry.2
          changes := state.changes + 1 } := by
  unfold mergeProperty settled complaints handedDown
  cases state.child.get? entry.1 with
  | none => simp
  | some own => by_cases h : (own.mergeParent entry.2).1.agrees own <;> simp [h]

theorem class_mergeProperty (state : Merge) (entry : Iri × PropertyConstraints) :
    (mergeProperty state entry).child.class = state.child.class := by
  rw [mergeProperty_eq]
  split <;> rfl

theorem get?_mergeProperty (state : Merge) (entry : Iri × PropertyConstraints) (p : Iri) :
    (mergeProperty state entry).child.get? p =
      if p = entry.1 then
        some (handedDown state.child.class (state.child.get? entry.1) entry.2)
      else state.child.get? p := by
  rw [mergeProperty_eq]
  split
  next h =>
    obtain ⟨own, hown, hagrees⟩ := settled_iff.1 h
    by_cases hp : p = entry.1
    · simp [hp, hown, handedDown, hagrees]
    · simp [hp]
  next => simp

theorem diagnostics_mergeProperty (state : Merge) (entry : Iri × PropertyConstraints) :
    (mergeProperty state entry).diagnostics =
      state.diagnostics ++ complaints (state.child.get? entry.1) entry.2 := by
  rw [mergeProperty_eq]
  split <;> rfl

theorem get?_foldl_mergeProperty {entries : List (Iri × PropertyConstraints)}
    (h : (entries.map Prod.fst).Nodup) (state : Merge) (p : Iri) :
    (entries.foldl mergeProperty state).child.get? p =
      match entries.lookup p with
      | none => state.child.get? p
      | some inherited => some (handedDown state.child.class (state.child.get? p) inherited) := by
  induction entries generalizing state with
  | nil => rfl
  | cons entry rest ih =>
    obtain ⟨hhead, hrest⟩ := List.nodup_cons.1 (List.map_cons ▸ h)
    rw [List.foldl_cons, ih hrest, class_mergeProperty, get?_mergeProperty,
      show entry = (entry.1, entry.2) from rfl, OrderedMap.lookup_cons_if]
    by_cases hp : p = entry.1
    · subst hp
      simp [OrderedMap.lookup_eq_none_of_notMem hhead]
    · simp [hp]

theorem class_foldl_mergeProperty (entries : List (Iri × PropertyConstraints)) (state : Merge) :
    (entries.foldl mergeProperty state).child.class = state.child.class := by
  induction entries generalizing state with
  | nil => rfl
  | cons entry rest ih => rw [List.foldl_cons, ih, class_mergeProperty]

theorem diagnostics_foldl_mergeProperty {entries : List (Iri × PropertyConstraints)}
    (h : (entries.map Prod.fst).Nodup) (state : Merge) :
    (entries.foldl mergeProperty state).diagnostics =
      state.diagnostics ++
        entries.flatMap fun entry ↦ complaints (state.child.get? entry.1) entry.2 := by
  induction entries generalizing state with
  | nil => simp
  | cons entry rest ih =>
    obtain ⟨hhead, hrest⟩ := List.nodup_cons.1 (List.map_cons ▸ h)
    have hsame : ∀ e ∈ rest, (mergeProperty state entry).child.get? e.1 = state.child.get? e.1 := by
      intro e he
      have hne : e.1 ≠ entry.1 := fun heq ↦ hhead (List.mem_map.2 ⟨e, he, heq⟩)
      rw [get?_mergeProperty, if_neg hne]
    rw [List.foldl_cons, ih hrest, diagnostics_mergeProperty, List.flatMap_cons, List.append_assoc]
    congr 2
    rw [List.flatMap_def, List.flatMap_def, List.map_congr_left fun e he ↦ by rw [hsame e he]]

theorem changes_le_foldl_mergeProperty (entries : List (Iri × PropertyConstraints))
    (state : Merge) : state.changes ≤ (entries.foldl mergeProperty state).changes := by
  induction entries generalizing state with
  | nil => exact Nat.le_refl _
  | cons entry rest ih =>
    refine Nat.le_trans ?_ (ih (mergeProperty state entry))
    rw [mergeProperty_eq]
    split
    · exact Nat.le_refl _
    · exact Nat.le_succ _

theorem settled_of_changes_foldl {entries : List (Iri × PropertyConstraints)} (state : Merge)
    (h : (entries.foldl mergeProperty state).changes = state.changes) :
    (∀ entry ∈ entries, settled (state.child.get? entry.1) entry.2 = true) ∧
      (entries.foldl mergeProperty state).child = state.child := by
  induction entries generalizing state with
  | nil => exact ⟨fun _ he ↦ absurd he List.not_mem_nil, rfl⟩
  | cons entry rest ih =>
    rw [List.foldl_cons] at h ⊢
    have hle := changes_le_foldl_mergeProperty rest (mergeProperty state entry)
    by_cases hs : settled (state.child.get? entry.1) entry.2 = true
    · have hchild : (mergeProperty state entry).child = state.child := by
        rw [mergeProperty_eq, if_pos hs]
      have hchanges : (mergeProperty state entry).changes = state.changes := by
        rw [mergeProperty_eq, if_pos hs]
      obtain ⟨hrest, hend⟩ := ih _ (h.trans hchanges.symm)
      rw [hchild] at hrest hend
      exact ⟨List.forall_mem_cons.2 ⟨hs, hrest⟩, hend⟩
    · have hchanges : (mergeProperty state entry).changes = state.changes + 1 := by
        rw [mergeProperty_eq, if_neg hs]
      omega

/-- A class takes nothing from itself, which edges from a class to itself rely on. -/
theorem mergeParent_self (c : ClassConstraints) : c.mergeParent c = { child := c } := by
  have hfold : ∀ entries : List (Iri × PropertyConstraints),
      (∀ entry ∈ entries, entry ∈ c.properties.entries) →
        entries.foldl mergeProperty { child := c } = { child := c } := by
    intro entries hmem
    induction entries with
    | nil => rfl
    | cons entry rest ih =>
      have hget : c.get? entry.1 = some entry.2 :=
        OrderedMap.get?_eq_some_iff.2 (hmem entry List.mem_cons_self)
      have hstep : mergeProperty { child := c } entry = { child := c } := by
        simp [mergeProperty_eq, hget, settled, complaints, PropertyConstraints.mergeParent_self,
          PropertyConstraints.agrees, PropertyConstraints.plain]
      rw [List.foldl_cons, hstep]
      exact ih fun e he ↦ hmem e (List.mem_cons_of_mem _ he)
  exact hfold _ fun _ he ↦ he

theorem get?_mergeParent (child parent : ClassConstraints) (p : Iri) :
    (child.mergeParent parent).child.get? p =
      match parent.get? p with
      | none => child.get? p
      | some inherited => some (handedDown child.class (child.get? p) inherited) :=
  get?_foldl_mergeProperty parent.properties.nodup_keys { child } p

@[simp] theorem class_mergeParent (child parent : ClassConstraints) :
    (child.mergeParent parent).child.class = child.class :=
  class_foldl_mergeProperty parent.properties.entries { child }

theorem mem_diagnostics_mergeParent {r : Diagnostic} :
    r ∈ (child.mergeParent parent).diagnostics ↔
      ∃ p own inherited, child.get? p = some own ∧ parent.get? p = some inherited ∧
        r ∈ (own.mergeParent inherited).2 := by
  have h := diagnostics_foldl_mergeProperty parent.properties.nodup_keys { child }
  rw [mergeParent, h, List.nil_append, List.mem_flatMap]
  constructor
  · rintro ⟨⟨p, inherited⟩, he, hr⟩
    cases hown : child.get? p with
    | none => simp [complaints, hown] at hr
    | some own =>
      exact ⟨p, own, inherited, hown, OrderedMap.get?_eq_some_iff.2 he, by
        simpa [complaints, hown] using hr⟩
  · rintro ⟨p, own, inherited, hown, hparent, hr⟩
    exact ⟨(p, inherited), OrderedMap.get?_eq_some_iff.1 hparent, by
      simpa [complaints, hown] using hr⟩

theorem settled_of_changes_eq_zero (h : (child.mergeParent parent).changes = 0) :
    (∀ p inherited, parent.get? p = some inherited →
      ∃ own, child.get? p = some own ∧ (own.mergeParent inherited).1.agrees own = true) ∧
      (child.mergeParent parent).child = child := by
  obtain ⟨hall, hend⟩ := settled_of_changes_foldl { child } h
  refine ⟨fun p inherited hp ↦ ?_, hend⟩
  exact settled_iff.1 (hall (p, inherited) (OrderedMap.get?_eq_some_iff.1 hp))

end ClassConstraints

end OntologyGuard
