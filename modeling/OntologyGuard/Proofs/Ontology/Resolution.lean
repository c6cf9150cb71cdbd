import OntologyGuard.Ontology.Resolution
import OntologyGuard.Proofs.Hierarchy
import OntologyGuard.Proofs.Inheritance.Meets

namespace OntologyGuard

namespace Diagnostic

variable {ds : List Diagnostic}

theorem mem_sortBySubject {d : Diagnostic} : d ∈ sortBySubject ds ↔ d ∈ ds :=
  List.mem_mergeSort

theorem mem_distinct {d : Diagnostic} : d ∈ distinct ds ↔ d ∈ ds :=
  List.mem_eraseDups

end Diagnostic

theorem PropertyRanges.mem_checkDefinitions {ranges : PropertyRanges} {context : Context}
    {definitions : Definitions} {r : Diagnostic} :
    r ∈ ranges.checkDefinitions context definitions ↔
      ∃ iri c p own, definitions.restricted? iri = some c ∧ c.get? p = some own ∧
        r ∈ ranges.check context iri p own := by
  simp only [checkDefinitions, List.mem_flatMap, Prod.exists, Definitions.mem_restrictions,
    ClassConstraints.get?, OrderedMap.get?_eq_some_iff, exists_and_left]

theorem Definitions.mem_keys_ofClasses {classes : List ClassDescription} {iri : Iri} :
    iri ∈ (ofClasses classes).1.keys ↔ ∃ d ∈ classes, d.iri = iri := by
  rw [ofClasses_eq_foldl]
  refine (OrderedMap.mem_keys_foldl_collect (fun d : ClassDescription ↦ d.iri) .unconstrained
    fun _ d ↦ (ClassDefinition.ofDescription d).1).trans (or_iff_right ?_)
  exact List.not_mem_nil

theorem Definitions.defined_ofClasses {classes : List ClassDescription} {d : ClassDescription}
    (hd : d ∈ classes) : ∃ definition, (ofClasses classes).1.get? d.iri = some definition :=
  OrderedMap.mem_keys_iff.1 (mem_keys_ofClasses.2 ⟨d, hd, rfl⟩)

namespace Ontology

variable {config : ResolverConfig} {document : OntologyDocument}

def inheritance (config : ResolverConfig) (document : OntologyDocument) : Inheritance :=
  let own := (Definitions.ofClasses document.classes).1
  Inheritance.run own (Hierarchy.ofClasses document.classes).breakCycles.1.children
    (config.maxPasses.getD (Inheritance.defaultMaxPasses own))

theorem mem_diagnostics_resolve {d : Diagnostic} :
    d ∈ (resolve config document).diagnostics ↔
      d ∈ (Definitions.ofClasses document.classes).2 ∨
      d ∈ (Hierarchy.ofClasses document.classes).breakCycles.2 ∨
      d ∈ (inheritance config document).diagnostics ∨
      d ∈ (PropertyRanges.ofProperties (.ofBindings document.bindings) document.properties).2 ∨
      d ∈ (resolve config document).propertyRanges.checkDefinitions
        (.ofBindings document.bindings) (resolve config document).definitions := by
  refine (Diagnostic.mem_sortBySubject.trans Diagnostic.mem_distinct).trans ?_
  simp only [List.mem_append, or_assoc]
  rfl

theorem defined_of_mem_classes (config : ResolverConfig) {d : ClassDescription}
    (hd : d ∈ document.classes) :
    ∃ definition, (resolve config document).definitions.get? d.iri = some definition :=
  Inheritance.run_defined (Definitions.defined_ofClasses hd)

theorem meets_of_declared (h : (resolve config document).diagnostics = []) {d : ClassDescription}
    (hd : d ∈ document.classes) {parent : Iri} (hparent : parent ∈ d.parents)
    (hplain : ∀ words, (resolve config document).definitions.get? d.iri ≠
      some (.datatype words)) :
    (resolve config document).definitions.Meets d.iri parent := by
  have hnone (r : Diagnostic) : r ∉ (resolve config document).diagnostics := by simp [h]
  have hcycles : (Hierarchy.ofClasses document.classes).breakCycles.2 = [] :=
    List.eq_nil_iff_forall_not_mem.2 fun r hr ↦
      hnone r (mem_diagnostics_resolve.2 (.inr (.inl hr)))
  have hreports : (inheritance config document).diagnostics = [] :=
    List.eq_nil_iff_forall_not_mem.2 fun r hr ↦
      hnone r (mem_diagnostics_resolve.2 (.inr (.inr (.inl hr))))
  have hedge : (parent, d.iri) ∈ (Hierarchy.ofClasses document.classes).breakCycles.1.edges := by
    rw [Hierarchy.mem_edges, Hierarchy.childrenOf_breakCycles hcycles,
      Hierarchy.mem_childrenOf_ofClasses]
    exact ⟨d, hd, rfl, hparent⟩
  exact Inheritance.meets_of_diagnostics_eq_nil hreports hedge hplain

theorem range_eq_declared (h : (resolve config document).diagnostics = []) {«class» p : Iri}
    {constraints : ClassConstraints} {own : PropertyConstraints} {range declared : Iri}
    (hconstraints : (resolve config document).definitions.restricted? «class» = some constraints)
    (hown : constraints.get? p = some own) (hrange : own.range = some range)
    (hdeclared : (resolve config document).propertyRanges.get? p = some (some declared)) :
    range = declared := by
  by_cases heq : declared = range
  · exact heq.symm
  · have hcheck : (resolve config document).propertyRanges.check (.ofBindings document.bindings)
        «class» p own ≠ [] := by
      simp [PropertyRanges.check, hrange, hdeclared, heq]
    obtain ⟨r, hr⟩ := List.exists_mem_of_ne_nil _ hcheck
    have hmem : r ∈ (resolve config document).propertyRanges.checkDefinitions
        (.ofBindings document.bindings) (resolve config document).definitions :=
      PropertyRanges.mem_checkDefinitions.2 ⟨«class», constraints, p, own, hconstraints, hown, hr⟩
    have hreported := mem_diagnostics_resolve.2 (.inr (.inr (.inr (.inr hmem))))
    rw [h] at hreported
    cases hreported

end Ontology

/-- A class that the document describes and that is no datatype. -/
structure PlainClass (document : OntologyDocument) (ontology : Ontology) (iri : Iri) : Prop where
  described : ∃ d ∈ document.classes, d.iri = iri
  notDatatype : ∀ words, ontology.definitions.get? iri ≠ some (.datatype words)

/-- A chain of declared parents from the lower class up to the upper one. -/
inductive DeclaredBelow (document : OntologyDocument) (ontology : Ontology) : Iri → Iri → Prop where
  | refl {iri : Iri} (h : PlainClass document ontology iri) : DeclaredBelow document ontology iri iri
  | step {d : ClassDescription} {parent upper : Iri} (h : PlainClass document ontology d.iri)
    (hd : d ∈ document.classes) (hparent : parent ∈ d.parents)
    (rest : DeclaredBelow document ontology parent upper) :
    DeclaredBelow document ontology d.iri upper

namespace DeclaredBelow

variable {config : ResolverConfig} {document : OntologyDocument} {ontology : Ontology}
  {lower upper : Iri}

theorem plain_upper (h : DeclaredBelow document ontology lower upper) :
    PlainClass document ontology upper := by
  induction h with
  | refl h => exact h
  | step _ _ _ _ ih => exact ih

theorem meets (h : (Ontology.resolve config document).diagnostics = [])
    (hbelow : DeclaredBelow document (.resolve config document) lower upper) :
    (Ontology.resolve config document).definitions.Meets lower upper := by
  induction hbelow with
  | refl _ => exact .refl _ _
  | step hplain hd hparent _ ih =>
    exact (Ontology.meets_of_declared h hd hparent hplain.notDatatype).trans ih

end DeclaredBelow

end OntologyGuard
