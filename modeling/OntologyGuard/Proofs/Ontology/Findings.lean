import OntologyGuard.Ontology.Definition
import OntologyGuard.Proofs.Constraint.Facets

namespace OntologyGuard

/-- The forms that a report on a description of the class can have. -/
inductive FoundIn («class» : Iri) : Diagnostic → Prop where
  | conflict {c : PropertyConstraints} (h : c.class = some «class»)
    (conflict : PropertyConstraints.Conflict) : FoundIn «class» (c.report conflict)
  | restriction (fault : Restriction.Fault) (property : Option Iri) :
    FoundIn «class» (fault.report «class» property)
  | enumeration (fault : DatatypeConstraints.Fault) : FoundIn «class» (fault.report «class»)

variable {«class» property : Iri} {r : Diagnostic}

theorem FoundIn.class_eq (h : FoundIn «class» r) : r.class = some «class» := by
  cases h with
  | conflict h _ => exact h
  | restriction | enumeration => rfl

namespace PropertyConstraints

variable {c : PropertyConstraints}

theorem foundIn_apply (h : c.class = some «class») (f : Facet) :
    ∀ r ∈ (c.apply f).2, FoundIn «class» r := by
  intro r hr
  obtain ⟨conflict, rfl⟩ := exists_report_of_mem_apply hr
  exact .conflict h conflict

theorem foundIn_checkQualification (h : c.class = some «class») :
    ∀ r ∈ c.checkQualification, FoundIn «class» r := by
  unfold checkQualification
  split
  · exact List.forall_mem_singleton.2 (.conflict h _)
  · exact List.forall_mem_singleton.2 (.conflict h _)
  · exact List.forall_mem_nil _

end PropertyConstraints

namespace Restriction

theorem foundIn_addFact {state : PropertyConstraints × List Diagnostic}
    (h : state.1.class = some «class» ∧ ∀ r ∈ state.2, FoundIn «class» r) (fact : Iri × Term) :
    (addFact «class» property state fact).1.class = some «class» ∧
      ∀ r ∈ (addFact «class» property state fact).2, FoundIn «class» r := by
  obtain ⟨hclass, hfound⟩ := h
  unfold addFact
  split
  next f _ =>
    refine ⟨(PropertyConstraints.apply_grows state.1 f).sameClass.trans hclass, ?_⟩
    exact List.forall_mem_append.2 ⟨hfound, PropertyConstraints.foundIn_apply hclass f⟩
  next fault _ =>
    refine ⟨hclass, List.forall_mem_append.2 ⟨hfound, ?_⟩⟩
    exact List.forall_mem_singleton.2 (.restriction fault _)

theorem foundIn_constraints («class» property : Iri) (node : PredicateMap) :
    ∀ r ∈ (constraints «class» property node).2, FoundIn «class» r := by
  unfold constraints
  generalize (facts node).filter (fun fact ↦ fact.1 ≠ Rdf.type ∧ fact.1 ≠ Owl.onProperty) = stated
  have hread := List.foldlRecOn
    (motive := fun state ↦ state.1.class = some «class» ∧ ∀ r ∈ state.2, FoundIn «class» r)
    stated (addFact «class» property) (b := (.unset «class» property, []))
    ⟨rfl, List.forall_mem_nil _⟩ fun _ h fact _ ↦ foundIn_addFact h fact
  exact List.forall_mem_append.2
    ⟨hread.2, PropertyConstraints.foundIn_checkQualification hread.1⟩

theorem foundIn_read («class» : Iri) (node : PredicateMap) :
    ∀ r ∈ (read «class» node).2, FoundIn «class» r := by
  have hambiguous : ∀ r ∈ ambiguities «class» node, FoundIn «class» r :=
    List.forall_mem_map.2 fun _ _ ↦ .restriction _ _
  unfold read
  dsimp only
  split
  · exact List.forall_mem_append.2 ⟨hambiguous, List.forall_mem_singleton.2 (.restriction _ _)⟩
  · split
    · exact List.forall_mem_append.2 ⟨hambiguous, List.forall_mem_singleton.2 (.restriction _ _)⟩
    · exact List.forall_mem_append.2 ⟨hambiguous, foundIn_constraints «class» _ node⟩

end Restriction

namespace ClassConstraints

theorem foundIn_addSubject {state : ClassConstraints × List Diagnostic}
    (h : state.1.class = «class» ∧ ∀ r ∈ state.2, FoundIn «class» r)
    (subject : Term × PredicateMap) :
    (addSubject state subject).1.class = «class» ∧
      ∀ r ∈ (addSubject state subject).2, FoundIn «class» r := by
  obtain ⟨rfl, hfound⟩ := h
  have hread := Restriction.foundIn_read state.1.class subject.2
  unfold addSubject
  split
  · split
    next hsome =>
      rw [hsome] at hread
      exact ⟨rfl, List.forall_mem_append.2 ⟨hfound, hread⟩⟩
    next hnone =>
      rw [hnone] at hread
      exact ⟨rfl, List.forall_mem_append.2 ⟨hfound, hread⟩⟩
  · exact ⟨rfl, hfound⟩

theorem foundIn_ofTriples («class» : Iri) (triples : List Triple) :
    ∀ r ∈ (ofTriples «class» triples).2, FoundIn «class» r := by
  have hread := List.foldlRecOn
    (motive := fun state ↦ state.1.class = «class» ∧ ∀ r ∈ state.2, FoundIn «class» r)
    (TripleIndex.ofTriples triples).subjects.entries addSubject (b := ({ «class» }, []))
    ⟨rfl, List.forall_mem_nil _⟩ fun _ h subject _ ↦ foundIn_addSubject h subject
  exact hread.2

end ClassConstraints

theorem DatatypeConstraints.foundIn_ofTriples («class» : Iri) (triples : List Triple) :
    ∀ r ∈ (ofTriples «class» triples).2, FoundIn «class» r := by
  unfold ofTriples
  dsimp only
  split
  · exact List.forall_mem_singleton.2 (.enumeration _)
  · split
    · split
      · exact List.forall_mem_nil _
      · exact List.forall_mem_map.2 fun _ _ ↦ .enumeration _
    · exact List.forall_mem_singleton.2 (.enumeration _)
  · exact List.forall_mem_singleton.2 (.enumeration _)

theorem ClassDefinition.foundIn_ofDescription (description : ClassDescription) :
    ∀ r ∈ (ofDescription description).2, FoundIn description.iri r := by
  have hread := DatatypeConstraints.foundIn_ofTriples description.iri description.triples
  unfold ofDescription
  split
  · exact ClassConstraints.foundIn_ofTriples _ _
  · split
    next hsome =>
      rwa [hsome] at hread
    next hnone =>
      rwa [hnone] at hread
  · exact List.forall_mem_nil _

theorem Diagnostic.foldl_found {α σ : Type} {step : σ × List Diagnostic → α → σ × List Diagnostic}
    {f : α → List Diagnostic} (h : ∀ state a, (step state a).2 = state.2 ++ f a) (list : List α)
    (state : σ × List Diagnostic) : (list.foldl step state).2 = state.2 ++ list.flatMap f := by
  induction list generalizing state with
  | nil => simp
  | cons a rest ih => rw [List.foldl_cons, ih, h, List.flatMap_cons, List.append_assoc]

theorem Definitions.reports_ofClasses (classes : List ClassDescription) :
    (ofClasses classes).2 =
      classes.flatMap fun description ↦ (ClassDefinition.ofDescription description).2 := by
  unfold ofClasses
  rw [Diagnostic.foldl_found (f := fun description ↦
    (ClassDefinition.ofDescription description).2) (fun _ _ ↦ rfl), List.nil_append]

end OntologyGuard
