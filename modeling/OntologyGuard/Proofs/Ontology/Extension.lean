import OntologyGuard.Proofs.Hierarchy.Leaf
import OntologyGuard.Proofs.Inheritance.Leaf
import OntologyGuard.Proofs.Ontology.Guarantees

/-!
Documents that grow by a class at the bottom. Whatever the new class says and whatever it has for
parents, the classes that were there before are resolved as without it.
-/

namespace OntologyGuard

def OntologyDocument.addClass (document : OntologyDocument) (added : ClassDescription) :
    OntologyDocument :=
  { document with classes := document.classes ++ [added] }

theorem Definitions.get?_ofClasses_append {classes : List ClassDescription}
    {added : ClassDescription} {iri : Iri} (h : iri ≠ added.iri) :
    (ofClasses (classes ++ [added])).1.get? iri = (ofClasses classes).1.get? iri := by
  rw [ofClasses_eq_foldl, ofClasses_eq_foldl, List.foldl_append]
  exact (OrderedMap.get?_insert _ _ _ _).trans (if_neg h)

theorem Definitions.mem_reports_ofClasses_append {classes : List ClassDescription}
    {added : ClassDescription} {r : Diagnostic} (h : r.class ≠ some added.iri) :
    r ∈ (ofClasses (classes ++ [added])).2 ↔ r ∈ (ofClasses classes).2 := by
  rw [reports_ofClasses, reports_ofClasses, List.flatMap_append, List.mem_append,
    List.flatMap_singleton]
  exact or_iff_left fun hr ↦ h (ClassDefinition.foundIn_ofDescription added r hr).class_eq

theorem PropertyRanges.class_of_mem_check {ranges : PropertyRanges} {context : Context}
    {«class» p : Iri} {own : PropertyConstraints} {r : Diagnostic}
    (hr : r ∈ ranges.check context «class» p own) : r.class = some «class» := by
  unfold check at hr
  dsimp only at hr
  split at hr
  · cases hr
  · split at hr
    · rw [List.mem_singleton.1 hr]
    · split at hr
      · cases hr
      · rw [List.mem_singleton.1 hr]
    · cases hr

theorem PropertyRanges.mem_checkDefinitions_congr {ranges : PropertyRanges} {context : Context}
    {definitions definitions' : Definitions} {leaf : Iri} {r : Diagnostic}
    (h : ∀ iri, iri ≠ leaf → definitions.get? iri = definitions'.get? iri)
    (hr : r.class ≠ some leaf) :
    r ∈ ranges.checkDefinitions context definitions ↔
      r ∈ ranges.checkDefinitions context definitions' := by
  rw [mem_checkDefinitions, mem_checkDefinitions]
  refine exists_congr fun iri ↦ ?_
  by_cases hiri : iri = leaf
  · have hfalse (p : Iri) (own : PropertyConstraints) : r ∉ ranges.check context iri p own :=
      fun hmem ↦ hr (hiri ▸ class_of_mem_check hmem)
    simp [hfalse]
  · unfold Definitions.restricted?
    rw [h iri hiri]

namespace Ontology

open Hierarchy Inheritance

variable {config : ResolverConfig} {document : OntologyDocument} {added : ClassDescription}

theorem inheritance_agrees (hmax : config.maxPasses = none)
    (hnew : ∀ d ∈ document.classes, d.iri ≠ added.iri ∧ added.iri ∉ d.parents) :
    AgreeExcept added.iri (inheritance config (document.addClass added)).definitions
      (inheritance config document).definitions
      (inheritance config (document.addClass added)).diagnostics
      (inheritance config document).diagnostics := by
  have hleaf := addsLeaf_ofClasses hnew
  have hown : AgreeExcept added.iri (Definitions.ofClasses (document.classes ++ [added])).1
      (Definitions.ofClasses document.classes).1 [] [] :=
    ⟨(Definitions.ofClasses_sound _).1, fun _ ↦ Definitions.get?_ofClasses_append,
      fun _ _ ↦ Iff.rfl⟩
  exact hown.after_run hleaf.childless_breakCycles hleaf.breakCycles.edges
    (quiet_inheritance hmax) (quiet_inheritance hmax)

/-- A new class that no class of the document is or has for a parent leaves the definitions of all
others as they are, and what is reported on them. -/
theorem others_unchanged_of_addClass (config : ResolverConfig) (document : OntologyDocument)
    (added : ClassDescription) (hmax : config.maxPasses = none)
    (hnew : ∀ d ∈ document.classes, d.iri ≠ added.iri ∧ added.iri ∉ d.parents) :
    (∀ iri, iri ≠ added.iri → (resolve config (document.addClass added)).definitions.get? iri =
      (resolve config document).definitions.get? iri) ∧
    ∀ r iri, r.class = some iri → iri ≠ added.iri →
      (r ∈ (resolve config (document.addClass added)).diagnostics ↔
        r ∈ (resolve config document).diagnostics) := by
  have hagree := inheritance_agrees hmax hnew
  refine ⟨hagree.definitions, ?_⟩
  intro r iri hclass hiri
  have hr : r.class ≠ some added.iri := by
    intro heq
    exact hiri (Option.some.inj (hclass.symm.trans heq))
  rw [mem_diagnostics_resolve, mem_diagnostics_resolve]
  refine or_congr ?_ (or_congr ?_ (or_congr ?_ (or_congr ?_ ?_)))
  · exact Definitions.mem_reports_ofClasses_append hr
  · exact (addsLeaf_ofClasses hnew).mem_reports_iff hr
  · exact hagree.reports r hr
  · exact Iff.rfl
  · exact PropertyRanges.mem_checkDefinitions_congr hagree.definitions hr

/-- Two classes that are each other's parent, and one that asks for less than its parent. -/
def loopAbove : OntologyDocument where
  classes :=
    [{ boundedClass "A" Owl.minCardinality "2" with parents := ["B"] },
      { iri := "B", parents := ["A"] },
      { boundedClass "C" Owl.minCardinality "1" with parents := ["A"] }]

/-- A class with a bound that is no number, which has itself, a class of the loop and one that is not
described for parents. -/
def belowLoop : ClassDescription :=
  { boundedClass "D" Owl.maxCardinality "few" with parents := ["D", "C", "B", "X"] }

theorem others_unchanged_belowLoop :
    (∀ d ∈ loopAbove.classes, d.iri ≠ belowLoop.iri ∧ belowLoop.iri ∉ d.parents) ∧
      (∃ r ∈ (resolve {} (loopAbove.addClass belowLoop)).diagnostics, r.class = some "D") ∧
      (∃ r ∈ (inheritance {} loopAbove).diagnostics, r.class = some "C") ∧
      (∀ iri, iri ≠ "D" → (resolve {} (loopAbove.addClass belowLoop)).definitions.get? iri =
        (resolve {} loopAbove).definitions.get? iri) ∧
      ∀ r iri, r.class = some iri → iri ≠ "D" →
        (r ∈ (resolve {} (loopAbove.addClass belowLoop)).diagnostics ↔
          r ∈ (resolve {} loopAbove).diagnostics) := by
  have hnew : ∀ d ∈ loopAbove.classes, d.iri ≠ belowLoop.iri ∧ belowLoop.iri ∉ d.parents := by
    decide +kernel
  have hreports : ∃ r ∈ (inheritance {} loopAbove).diagnostics, r.class = some "C" := by
    decide +kernel
  have hown : ∃ r ∈ (Definitions.ofClasses (loopAbove.addClass belowLoop).classes).2,
      r.class = some "D" := by decide +kernel
  obtain ⟨r, hr, hclass⟩ := hown
  exact ⟨hnew, ⟨r, mem_diagnostics_resolve.2 (.inl hr), hclass⟩, hreports,
    others_unchanged_of_addClass {} loopAbove belowLoop rfl hnew⟩

end Ontology

end OntologyGuard
