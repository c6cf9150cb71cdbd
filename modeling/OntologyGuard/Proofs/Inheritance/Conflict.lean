import OntologyGuard.Proofs.Constraint.Reading

namespace OntologyGuard.Inheritance

open PropertyConstraints

variable {children : OrderedMap Iri (List Iri)} {definitions later : Definitions}

/-- A direct parent constrains the property, and the class does not meet its constraints. -/
def WeakerThanParent (children : OrderedMap Iri (List Iri)) (definitions : Definitions)
    («class» property : Iri) : Prop :=
  ∃ origin parent child inherited, (origin, «class») ∈ edgesOf children ∧
    definitions.restricted? origin = some parent ∧ definitions.restricted? «class» = some child ∧
    parent.get? property = some inherited ∧
    ¬ ∃ own, child.get? property = some own ∧ own.AtLeastAsTight inherited

/-- A report stands on fields along an edge that clash. -/
def Founded (children : OrderedMap Iri (List Iri)) (definitions : Definitions) (r : Diagnostic) :
    Prop :=
  ∃ edge ∈ edgesOf children, ∃ property parent child inherited own,
    definitions.restricted? edge.1 = some parent ∧ definitions.restricted? edge.2 = some child ∧
    parent.get? property = some inherited ∧ child.get? property = some own ∧
    own.Clash inherited ∧ r.class = some edge.2 ∧ r.property = some property

theorem Founded.mono {r : Diagnostic} (h : Founded children definitions r)
    (hlater : later.Extends definitions) : Founded children later r := by
  obtain ⟨edge, hedge, property, parent, child, inherited, own, hparent, hchild, hinherited, hown,
    hclash, hlabel⟩ := h
  obtain ⟨parent', hparent', hp⟩ := hlater _ _ hparent
  obtain ⟨child', hchild', hc⟩ := hlater _ _ hchild
  obtain ⟨inherited', hinherited', hi⟩ := hp _ _ hinherited
  obtain ⟨own', hown', ho⟩ := hc _ _ hown
  exact ⟨edge, hedge, property, parent', child', inherited', own', hparent', hchild', hinherited',
    hown', hclash.mono ho hi, hlabel⟩

theorem founded_of_mem_reports (hlabelled : definitions.Labelled)
    (huncrossed : definitions.Uncrossed) {edge : Iri × Iri} (hedge : edge ∈ edgesOf children)
    {r : Diagnostic} (hr : r ∈ Pass.reports definitions edge) :
    Founded children definitions r := by
  obtain ⟨parent, child, hparent, hchild, hr⟩ := Pass.mem_reports.1 hr
  obtain ⟨property, own, inherited, hown, hinherited, hr⟩ :=
    ClassConstraints.mem_diagnostics_mergeParent.1 hr
  have hlabel := (hlabelled _ _ hchild).2 _ _ hown
  obtain ⟨-, hclass, hproperty⟩ := label_of_mem_mergeParent hr
  exact ⟨edge, hedge, property, parent, child, inherited, own, hparent, hchild, hinherited, hown,
    clash_of_mem_mergeParent hr (huncrossed _ _ hparent _ _ hinherited),
    hclass.trans hlabel.1, hproperty.trans hlabel.2⟩

theorem founded_of_mem_afterPasses (hlabelled : definitions.Labelled)
    (huncrossed : definitions.Uncrossed) {n : Nat} {r : Diagnostic}
    (hr : r ∈ (afterPasses children definitions n).diagnostics) :
    Founded children (run definitions children n).definitions r := by
  have h := run_induction children definitions n
    (motive := fun definitions found ↦ definitions.Labelled ∧ definitions.Uncrossed ∧
      ∀ r ∈ found, Founded children definitions r)
    ⟨hlabelled, huncrossed, fun _ hr ↦ absurd hr List.not_mem_nil⟩ ?_
  · exact h.2.2 r hr
  · rintro pass edge hedge ⟨hlabelled, huncrossed, hfound⟩
    refine ⟨Pass.inherit_labelled hlabelled edge, Pass.inherit_uncrossed huncrossed edge,
      fun r hr ↦ ?_⟩
    rw [Pass.diagnostics_inherit, List.mem_append] at hr
    have hfounded : Founded children pass.definitions r := by
      rcases hr with hr | hr
      · exact hfound r hr
      · exact founded_of_mem_reports hlabelled huncrossed hedge hr
    exact hfounded.mono (Pass.inherit_extends pass edge)

theorem Founded.weakerThanParent {r : Diagnostic} (h : Founded children definitions r)
    (huncrossed : definitions.Uncrossed) {«class» property : Iri}
    (hclass : r.class = some «class») (hproperty : r.property = some property) :
    WeakerThanParent children definitions «class» property := by
  obtain ⟨edge, hedge, property', parent, child, inherited, own, hparent, hchild, hinherited, hown,
    hclash, hclass', hproperty'⟩ := h
  obtain rfl := Option.some.inj (hclass'.symm.trans hclass)
  obtain rfl := Option.some.inj (hproperty'.symm.trans hproperty)
  refine ⟨edge.1, parent, child, inherited, hedge, hparent, hchild, hinherited, ?_⟩
  rintro ⟨own', hown', htight⟩
  obtain rfl := Option.some.inj (hown.symm.trans hown')
  exact hclash.not_atLeastAsTight (huncrossed _ _ hchild _ _ hown) htight

theorem atLeastAsTight_of_settled {edge : Iri × Iri} (h : Pass.Settled definitions edge)
    {parent child : ClassConstraints} (hparent : definitions.restricted? edge.1 = some parent)
    (hchild : definitions.restricted? edge.2 = some child) {property : Iri}
    {inherited : PropertyConstraints} (hinherited : parent.get? property = some inherited) :
    ∃ own, child.get? property = some own ∧
      ((own.mergeParent inherited).2 = [] → own.AtLeastAsTight inherited) := by
  rcases h parent hparent with ⟨d, hd⟩ | ⟨child', hchild', hall⟩
  · cases hd.symm.trans (Definitions.restricted?_eq_some_iff.1 hchild)
  · obtain rfl := Option.some.inj (hchild.symm.trans hchild')
    obtain ⟨own, hown, hagrees⟩ := hall property inherited hinherited
    obtain ⟨-, -, hmin, hmax, hrange⟩ := agrees_iff.1 hagrees
    refine ⟨own, hown, fun hnil ↦ ?_⟩
    have htight := mergeParent_atLeastAsTight hnil
    exact ⟨hmin ▸ htight.min, hmax ▸ htight.max, hrange ▸ htight.range⟩

theorem exists_report_of_weakerThanParent (hlabelled : definitions.Labelled) {n : Nat}
    (hquiet : (run definitions children n).quiet = true) {«class» property : Iri}
    (h : WeakerThanParent children (run definitions children n).definitions «class» property) :
    ∃ r ∈ (run definitions children n).diagnostics,
      r.kind = .ontologyError ∧ r.class = some «class» ∧ r.property = some property := by
  obtain ⟨origin, parent, child, inherited, hedge, hparent, hchild, hinherited, hweak⟩ := h
  obtain ⟨hsettled, hreports⟩ := run_of_quiet hquiet _ hedge
  obtain ⟨own, hown, hmet⟩ := atLeastAsTight_of_settled hsettled hparent hchild hinherited
  have hsome : (own.mergeParent inherited).2 ≠ [] := fun hnil ↦ hweak ⟨own, hown, hmet hnil⟩
  obtain ⟨r, hr⟩ := List.exists_mem_of_ne_nil _ hsome
  obtain ⟨hkind, hclass, hproperty⟩ := label_of_mem_mergeParent hr
  have hlabel := (run_labelled hlabelled _ _ hchild).2 _ _ hown
  refine ⟨r, hreports r (Pass.mem_reports.2 ⟨parent, child, hparent, hchild, ?_⟩), hkind,
    hclass.trans hlabel.1, hproperty.trans hlabel.2⟩
  exact ClassConstraints.mem_diagnostics_mergeParent.2
    ⟨property, own, inherited, hown, hinherited, hr⟩

/-- Inheritance that ends quietly reports a class and a property exactly when the class ends weaker
there than a direct parent. Definitions as they are read meet the two conditions. -/
theorem reported_iff_weakerThanParent :
    (∀ classes, (Definitions.ofClasses classes).1.Labelled ∧
      (Definitions.ofClasses classes).1.Uncrossed) ∧
    ∀ (definitions : Definitions) (children : OrderedMap Iri (List Iri)) (maxPasses : Nat),
      definitions.Labelled → definitions.Uncrossed →
      (run definitions children maxPasses).quiet = true →
      ∀ «class» property : Iri,
        (∃ r ∈ (run definitions children maxPasses).diagnostics,
          r.kind = .ontologyError ∧ r.class = some «class» ∧ r.property = some property) ↔
        WeakerThanParent children (run definitions children maxPasses).definitions «class»
          property := by
  refine ⟨Definitions.ofClasses_sound, ?_⟩
  intro definitions children maxPasses hlabelled huncrossed hquiet «class» property
  constructor
  · rintro ⟨r, hr, -, hclass, hproperty⟩
    rcases mem_run_diagnostics.1 hr with hr | ⟨hnot, -⟩
    · exact (founded_of_mem_afterPasses hlabelled huncrossed hr).weakerThanParent
        (run_uncrossed huncrossed) hclass hproperty
    · cases hquiet.symm.trans hnot
  · exact exists_report_of_weakerThanParent hlabelled hquiet

def boundedClass (iri bound : Iri) (n : String) : ClassDescription where
  iri := iri
  triples :=
    [⟨.blank "node", Rdf.type, .iri Owl.restriction⟩, ⟨.blank "node", Owl.onProperty, .iri "p"⟩,
      ⟨.blank "node", bound, .literal ⟨n, none⟩⟩]

/-- Two parents of `"C"`, which takes the upper bound of the one and then cannot take the lower bound
of the other. -/
def crossingParents : Definitions :=
  (Definitions.ofClasses [boundedClass "A" Owl.maxCardinality "1",
    boundedClass "B" Owl.minCardinality "2", { iri := "C" }]).1

def crossingEdges : OrderedMap Iri (List Iri) := .ofList [("A", ["C"]), ("B", ["C"])]

theorem weakerThanParent_crossingParents :
    crossingParents.Labelled ∧ crossingParents.Uncrossed ∧
      (run crossingParents crossingEdges 2).quiet = true ∧
      WeakerThanParent crossingEdges (run crossingParents crossingEdges 2).definitions "C" "p" := by
  have hsound := Definitions.ofClasses_sound [boundedClass "A" Owl.maxCardinality "1",
    boundedClass "B" Owl.minCardinality "2", { iri := "C" }]
  have hquiet : (run crossingParents crossingEdges 2).quiet = true := by decide +kernel
  have hreported : ∃ r ∈ (run crossingParents crossingEdges 2).diagnostics,
      r.kind = .ontologyError ∧ r.class = some "C" ∧ r.property = some "p" := by decide +kernel
  exact ⟨hsound.1, hsound.2, hquiet,
    (reported_iff_weakerThanParent.2 _ _ _ hsound.1 hsound.2 hquiet "C" "p").1 hreported⟩

end OntologyGuard.Inheritance
