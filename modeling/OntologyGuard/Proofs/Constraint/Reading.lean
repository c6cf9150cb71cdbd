import OntologyGuard.Ontology.Definition
import OntologyGuard.Proofs.Constraint.Facets
import OntologyGuard.Proofs.Inheritance.Invariant

namespace OntologyGuard

namespace Restriction

open PropertyConstraints

variable {«class» property : Iri} {node : PredicateMap}

theorem addFact_grows (state : PropertyConstraints × List Diagnostic) (fact : Iri × Term) :
    (addFact «class» property state fact).1.Grows state.1 := by
  unfold addFact
  split
  next f _ => exact apply_grows state.1 f
  next => exact .refl state.1

theorem addFact_impliedBy {state : PropertyConstraints × List Diagnostic} {fact : Iri × Term}
    (h : (addFact «class» property state fact).2 = []) :
    state.2 = [] ∧ ∃ f, facet fact.1 fact.2 = .ok f ∧
      f.ImpliedBy (addFact «class» property state fact).1 := by
  unfold addFact at h ⊢
  cases hf : facet fact.1 fact.2 with
  | error fault => simp [hf] at h
  | ok f =>
    obtain ⟨hstate, hfound⟩ := List.append_eq_nil_iff.1 (by simpa [hf] using h)
    exact ⟨hstate, f, rfl, apply_impliedBy hfound⟩

theorem foldl_addFact_grows (facts : List (Iri × Term))
    (state : PropertyConstraints × List Diagnostic) :
    (facts.foldl (addFact «class» property) state).1.Grows state.1 := by
  induction facts generalizing state with
  | nil => exact .refl state.1
  | cons fact rest ih => exact (ih _).trans (addFact_grows state fact)

/-- A facet that came in early is still implied at the end, as set fields stay. -/
theorem foldl_addFact_impliedBy {facts : List (Iri × Term)}
    {state : PropertyConstraints × List Diagnostic}
    (h : (facts.foldl (addFact «class» property) state).2 = []) :
    state.2 = [] ∧ ∀ fact ∈ facts, ∃ f, facet fact.1 fact.2 = .ok f ∧
      f.ImpliedBy (facts.foldl (addFact «class» property) state).1 := by
  induction facts generalizing state with
  | nil => exact ⟨h, fun _ hf ↦ absurd hf List.not_mem_nil⟩
  | cons fact rest ih =>
    obtain ⟨hstep, hrest⟩ := ih h
    obtain ⟨hstate, f, hf, himplied⟩ := addFact_impliedBy hstep
    have hgrows : (rest.foldl (addFact «class» property) (addFact «class» property state fact)).1.Grows
        (addFact «class» property state fact).1 := foldl_addFact_grows rest _
    exact ⟨hstate, List.forall_mem_cons.2 ⟨⟨f, hf, hgrows.impliedBy himplied⟩, hrest⟩⟩

def statedFacts (node : PredicateMap) : List (Iri × Term) :=
  (facts node).filter fun fact ↦ fact.1 ≠ Rdf.type ∧ fact.1 ≠ Owl.onProperty

theorem constraints_eq (node : PredicateMap) :
    constraints «class» property node =
      (((statedFacts node).foldl (addFact «class» property) (unset «class» property, [])).1,
        ((statedFacts node).foldl (addFact «class» property) (unset «class» property, [])).2 ++
          ((statedFacts node).foldl (addFact «class» property)
            (unset «class» property, [])).1.checkQualification) := rfl

theorem constraints_grows («class» property : Iri) (node : PredicateMap) :
    (constraints «class» property node).1.Grows (unset «class» property) := by
  rw [constraints_eq]
  exact foldl_addFact_grows _ _

theorem constraints_impliedBy (h : (constraints «class» property node).2 = []) :
    ∀ fact ∈ statedFacts node, ∃ f, facet fact.1 fact.2 = .ok f ∧
      f.ImpliedBy (constraints «class» property node).1 := by
  rw [constraints_eq] at h ⊢
  exact (foldl_addFact_impliedBy (List.append_eq_nil_iff.1 h).1).2

theorem read_eq_some {p : Iri} {pc : PropertyConstraints}
    (h : (read «class» node).1 = some (p, pc)) :
    property? node = some p ∧ pc = (constraints «class» p node).1 := by
  unfold read at h
  dsimp only at h
  split at h
  · cases h
  · split at h
    · cases h
    next q hproperty =>
      cases h
      exact ⟨hproperty, rfl⟩

end Restriction

namespace ClassConstraints

variable {iri : Iri} {c : ClassConstraints}

theorem Labelled.set (h : c.Labelled iri) {p : Iri} {pc : PropertyConstraints}
    (hclass : pc.class = some iri) (hproperty : pc.property = some p) : (c.set p pc).Labelled iri := by
  refine ⟨h.1, fun q pc' hpc' ↦ ?_⟩
  rw [get?_set] at hpc'
  split at hpc'
  next hq =>
    cases hpc'
    exact ⟨hclass, hq ▸ hproperty⟩
  next => exact h.2 q pc' hpc'

theorem Uncrossed.set (h : c.Uncrossed) {pc : PropertyConstraints} (hpc : pc.Uncrossed) (p : Iri) :
    (c.set p pc).Uncrossed := by
  intro q pc' hpc'
  rw [get?_set] at hpc'
  split at hpc'
  · cases hpc'
    exact hpc
  · exact h q pc' hpc'

theorem addSubject_sound {state : ClassConstraints × List Diagnostic}
    (h : state.1.Labelled iri ∧ state.1.Uncrossed) (subject : Term × PredicateMap) :
    (addSubject state subject).1.Labelled iri ∧ (addSubject state subject).1.Uncrossed := by
  unfold addSubject
  split
  · split
    next p pc found hread =>
      have hpc : pc = (Restriction.constraints state.1.class p subject.2).1 :=
        (Restriction.read_eq_some (congrArg Prod.fst hread)).2
      have hgrows := Restriction.constraints_grows state.1.class p subject.2
      rw [← hpc] at hgrows
      refine ⟨h.1.set ?_ hgrows.sameProperty, h.2.set ?_ p⟩
      · rw [hgrows.sameClass, ← h.1.1]
        rfl
      · exact hgrows.uncrossed (PropertyConstraints.unset_uncrossed _ _)
    next => exact h
  · exact h

theorem foldl_addSubject_sound (subjects : List (Term × PredicateMap))
    {state : ClassConstraints × List Diagnostic}
    (h : state.1.Labelled iri ∧ state.1.Uncrossed) :
    (subjects.foldl addSubject state).1.Labelled iri ∧
      (subjects.foldl addSubject state).1.Uncrossed := by
  induction subjects generalizing state with
  | nil => exact h
  | cons subject rest ih => exact ih (addSubject_sound h subject)

theorem ofTriples_sound (iri : Iri) (triples : List Triple) :
    (ofTriples iri triples).1.Labelled iri ∧ (ofTriples iri triples).1.Uncrossed :=
  foldl_addSubject_sound _ ⟨⟨rfl, by rintro p pc ⟨⟩⟩, by rintro p pc ⟨⟩⟩

end ClassConstraints

namespace Definitions

theorem ofDescription_sound {description : ClassDescription} {c : ClassConstraints}
    (h : (ClassDefinition.ofDescription description).1 = .restricted c) :
    c.Labelled description.iri ∧ c.Uncrossed := by
  unfold ClassDefinition.ofDescription at h
  split at h
  · dsimp only at h
    split at h
    · cases h
    · cases h
      exact ClassConstraints.ofTriples_sound _ _
  · split at h <;> cases h
  · cases h

def addDescription (definitions : Definitions) (description : ClassDescription) : Definitions :=
  definitions.insert description.iri (ClassDefinition.ofDescription description).1

theorem ofClasses_eq_foldl (classes : List ClassDescription) :
    (ofClasses classes).1 = classes.foldl addDescription .empty := by
  unfold ofClasses
  generalize (OrderedMap.empty : Definitions) = definitions, ([] : List Diagnostic) = found
  induction classes generalizing definitions found with
  | nil => rfl
  | cons description rest ih => exact ih _ _

theorem foldl_addDescription_sound (classes : List ClassDescription) {definitions : Definitions}
    (h : definitions.Labelled ∧ definitions.Uncrossed) :
    (classes.foldl addDescription definitions).Labelled ∧
      (classes.foldl addDescription definitions).Uncrossed := by
  induction classes generalizing definitions with
  | nil => exact h
  | cons description rest ih =>
    refine ih (forall_and.1 fun iri ↦ forall_and.1 fun c ↦ forall_and.1 fun hc ↦ ?_)
    rw [restricted?_eq_some_iff, addDescription, OrderedMap.get?_insert] at hc
    split at hc
    next hiri => exact hiri ▸ ofDescription_sound (Option.some.inj hc)
    next =>
      have hc := restricted?_eq_some_iff.2 hc
      exact ⟨h.1 iri c hc, h.2 iri c hc⟩

theorem ofClasses_sound (classes : List ClassDescription) :
    (ofClasses classes).1.Labelled ∧ (ofClasses classes).1.Uncrossed := by
  rw [ofClasses_eq_foldl]
  exact foldl_addDescription_sound classes ⟨by rintro iri c ⟨⟩, by rintro iri c ⟨⟩⟩

end Definitions

end OntologyGuard
