import OntologyGuard.Proofs.Constraint.Vocabulary
import OntologyGuard.Proofs.Inheritance.Conflict
import OntologyGuard.Proofs.Inheritance.Provenance
import OntologyGuard.Proofs.Ontology.Resolution

namespace OntologyGuard

theorem DatatypeConstraints.class_of_ofTriples {«class» : Iri} {triples : List Triple}
    {words : DatatypeConstraints} (h : (ofTriples «class» triples).1 = some words) : words.class = «class» := by
  unfold ofTriples at h
  dsimp only at h
  split at h
  · cases h
  · split at h
    · split at h
      · obtain rfl := Option.some.inj h
        rfl
      · cases h
    · cases h
  · cases h

theorem ClassDefinition.class_of_ofDescription {description : ClassDescription} {words : DatatypeConstraints}
    (h : (ofDescription description).1 = .datatype words) : words.class = description.iri := by
  unfold ofDescription at h
  split at h
  · dsimp only at h
    split at h <;> cases h
  · split at h
    next constraints found hread =>
      obtain rfl := ClassDefinition.datatype.inj h
      exact DatatypeConstraints.class_of_ofTriples (congrArg Prod.fst hread)
    next => cases h
  · cases h

namespace Definitions

variable {classes : List ClassDescription} {definitions : Definitions} {iri : Iri} {definition : ClassDefinition}

theorem get?_foldl_addDescription (h : (classes.foldl addDescription definitions).get? iri = some definition) :
    definitions.get? iri = some definition ∨
      ∃ d ∈ classes, d.iri = iri ∧ (ClassDefinition.ofDescription d).1 = definition := by
  induction classes generalizing definitions with
  | nil => exact .inl h
  | cons d rest ih =>
    rcases ih h with hstart | ⟨later, hlater, hiri, hread⟩
    · rw [addDescription, OrderedMap.get?_insert] at hstart
      split at hstart
      next heq => exact .inr ⟨d, List.mem_cons_self, heq.symm, Option.some.inj hstart⟩
      next => exact .inl hstart
    · exact .inr ⟨later, List.mem_cons_of_mem d hlater, hiri, hread⟩

theorem exists_description_of_get? (h : (ofClasses classes).1.get? iri = some definition) :
    ∃ d ∈ classes, d.iri = iri ∧ (ClassDefinition.ofDescription d).1 = definition := by
  rw [ofClasses_eq_foldl] at h
  exact (get?_foldl_addDescription h).resolve_left nofun

end Definitions

namespace Ontology

open Inheritance (boundedClass)

/-- A resolved class owns its constraints: they name it and the properties that they are stored under. -/
theorem owned_resolve (config : ResolverConfig) (document : OntologyDocument) («class» : Iri) :
    (∀ constraints, (resolve config document).definitions.get? «class» = some (.restricted constraints) →
      constraints.class = «class» ∧ ∀ property own, constraints.get? property = some own →
        own.class = some «class» ∧ own.property = some property) ∧
    ∀ words, (resolve config document).definitions.get? «class» = some (.datatype words) →
      words.class = «class» := by
  have hlabelled : (resolve config document).definitions.Labelled :=
    Inheritance.run_labelled (Definitions.ofClasses_sound document.classes).1
  constructor
  · intro constraints hconstraints
    exact hlabelled «class» constraints (Definitions.restricted?_eq_some_iff.2 hconstraints)
  · intro words hwords
    have hown := Inheritance.get?_datatype_run_iff.1 hwords
    obtain ⟨d, -, rfl, hread⟩ := Definitions.exists_description_of_get? hown
    exact ClassDefinition.class_of_ofDescription hread

/-- `"B"` takes a copy of what `"A"` requires, `"C"` merges that copy into its own constraints, and the
vocabulary `"V"` takes nothing. -/
def handedDownTwice : OntologyDocument where
  classes :=
    [{ boundedClass "C" Owl.maxCardinality "3" with parents := ["B"] }, { iri := "B", parents := ["A"] },
      { iri := "V", kind := .datatype, parents := ["A"],
        triples := DatatypeConstraints.Enumeration.triples ⟨[⟨"cell", "red", none⟩], by decide⟩ "V" },
      boundedClass "A" Owl.minCardinality "1"]

def oneToThree : PropertyConstraints :=
  { «class» := some "C", property := some "p", min := some 1, max := some 3 }

theorem owned_handedDownTwice :
    (resolve {} handedDownTwice).definitions.get? "C" =
        some (.restricted { «class» := "C", properties := .ofList [("p", oneToThree)] }) ∧
      oneToThree.class = some "C" ∧ oneToThree.property = some "p" ∧
    ∃ words, (resolve {} handedDownTwice).definitions.get? "V" = some (.datatype words) ∧
      words.class = "V" := by
  have hconstraints : (resolve {} handedDownTwice).definitions.get? "C" =
      some (.restricted { «class» := "C", properties := .ofList [("p", oneToThree)] }) := by decide +kernel
  have hwords : (resolve {} handedDownTwice).definitions.get? "V" =
      some (.datatype { «class» := "V", vocabulary := .ofList ["red"] }) := by decide +kernel
  obtain ⟨hclass, hproperty⟩ := ((owned_resolve {} handedDownTwice "C").1 _ hconstraints).2 "p" oneToThree rfl
  exact ⟨hconstraints, hclass, hproperty, _, hwords, (owned_resolve {} handedDownTwice "V").2 _ hwords⟩

end Ontology

end OntologyGuard
