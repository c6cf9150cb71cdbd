import OntologyGuard.Ontology.Resolution
import OntologyGuard.Proofs.Ontology.Findings

namespace OntologyGuard

namespace Diagnostic

def BlamesDocument (r : Diagnostic) : Prop :=
  r.kind = .ontologyError ∨ r.kind = .unsupportedFeature

def AllBlameDocument (found : List Diagnostic) : Prop := ∀ r ∈ found, r.BlamesDocument

variable {r : Diagnostic}

theorem AllBlameDocument.nil : AllBlameDocument [] := fun _ hr ↦ absurd hr List.not_mem_nil

theorem BlamesDocument.singleton (h : r.BlamesDocument) : AllBlameDocument [r] :=
  List.forall_mem_singleton.2 h

theorem AllBlameDocument.map {α : Type} {f : α → Diagnostic} (h : ∀ a, (f a).BlamesDocument)
    (list : List α) : AllBlameDocument (list.map f) :=
  List.forall_mem_map.2 fun a _ ↦ h a

theorem AllBlameDocument.flatMap {α : Type} {f : α → List Diagnostic} (h : ∀ a, AllBlameDocument (f a))
    (list : List α) : AllBlameDocument (list.flatMap f) := by
  intro r hr
  obtain ⟨a, -, hr⟩ := List.mem_flatMap.1 hr
  exact h a r hr

end Diagnostic

open Diagnostic

theorem FoundIn.blamesDocument {«class» : Iri} {r : Diagnostic} (h : FoundIn «class» r) :
    r.BlamesDocument := by
  cases h with
  | conflict => exact .inl rfl
  | restriction fault property =>
    cases fault with
    | unsupportedType | unsupportedPredicate => exact .inr rfl
    | _ => exact .inl rfl
  | enumeration fault =>
    cases fault with
    | unknownForm => exact .inr rfl
    | _ => exact .inl rfl

theorem Definitions.blame_ofClasses (classes : List ClassDescription) :
    AllBlameDocument (ofClasses classes).2 := by
  rw [reports_ofClasses]
  exact .flatMap (fun description r hr ↦
    (ClassDefinition.foundIn_ofDescription description r hr).blamesDocument) classes

theorem Hierarchy.blame_breakCycles (h : Hierarchy) : AllBlameDocument h.breakCycles.2 :=
  .map (fun _ ↦ .inl rfl) _

namespace PropertyRanges

theorem blame_ofDescription (context : Context) (description : PropertyDescription) :
    AllBlameDocument (ofDescription context description).2 := by
  unfold ofDescription
  dsimp only
  split
  · split
    · exact BlamesDocument.singleton (.inr rfl)
    · exact BlamesDocument.singleton (.inl rfl)
  · exact .nil
  · exact BlamesDocument.singleton (.inl rfl)

theorem blame_ofProperties (context : Context) (properties : List PropertyDescription) :
    AllBlameDocument (ofProperties context properties).2 := by
  unfold ofProperties
  rw [foldl_found (f := fun description ↦ (ofDescription context description).2) (fun _ _ ↦ rfl),
    List.nil_append]
  exact .flatMap (blame_ofDescription context) properties

theorem blame_check (ranges : PropertyRanges) (context : Context) («class» property : Iri)
    (constraints : PropertyConstraints) :
    AllBlameDocument (ranges.check context «class» property constraints) := by
  unfold check
  dsimp only
  split
  · exact .nil
  · split
    · exact BlamesDocument.singleton (.inl rfl)
    · split
      · exact .nil
      · exact BlamesDocument.singleton (.inl rfl)
    · exact .nil

theorem blame_checkDefinitions (ranges : PropertyRanges) (context : Context)
    (definitions : Definitions) : AllBlameDocument (ranges.checkDefinitions context definitions) :=
  .flatMap (fun _ ↦ .flatMap (fun _ ↦ blame_check ranges context _ _ _) _) _

end PropertyRanges

end OntologyGuard
