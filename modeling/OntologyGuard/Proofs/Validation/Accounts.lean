import Mathlib.Data.List.Dedup
import OntologyGuard.Validation.Validator

/-!
Lists of findings in which each breach of a constraint is reported once. What is put together from such
lists is one again as long as no two parts report the same breach.
-/

namespace OntologyGuard.Validator

/-- What can be wrong with the values of a property: with their number, or with one of them. -/
inductive Breach where
  | missing (property : Iri)
  | tooFew (property : Iri)
  | tooMany (property : Iri)
  | wrongType (property : Iri) (value : Term)
  | outsideVocabulary (property : Iri) (value : Literal)
  deriving DecidableEq

def Breach.property : Breach → Iri
  | missing property | tooFew property | tooMany property => property
  | wrongType property _ => property
  | outsideVocabulary property _ => property

/-- How a breach is reported. -/
def Breach.report («class» : Iri) (line : Option UInt32) (breach : Breach) (message : String) : Diagnostic where
  kind := .constraintError
  message := message
  «class» := some «class»
  property := some breach.property
  line := line

/-- The constraint errors among the findings report some breaches, each of them once. -/
def Accounts (found : List Diagnostic) (P : Breach → String → Prop) : Prop :=
  ∃ breaches : List (Breach × String), (breaches.map Prod.fst).Nodup ∧
    (∀ breach message, (breach, message) ∈ breaches ↔ P breach message) ∧
    (found.filter (·.kind = .constraintError)).map (fun d ↦ (d.property, d.message)) =
      breaches.map fun entry ↦ (some entry.1.property, entry.2)

namespace Accounts

variable {found more : List Diagnostic} {P Q : Breach → String → Prop}

theorem congr (h : Accounts found P) (hiff : ∀ breach message, P breach message ↔ Q breach message) :
    Accounts found Q := by
  obtain ⟨breaches, hnodup, hmem, hfound⟩ := h
  exact ⟨breaches, hnodup, fun breach message ↦ (hmem breach message).trans (hiff breach message), hfound⟩

theorem of_noErrors (h : ∀ d ∈ found, d.kind ≠ .constraintError) : Accounts found fun _ _ ↦ False := by
  refine ⟨[], .nil, by simp, ?_⟩
  rw [List.filter_eq_nil_iff.2 fun d hd ↦ by simpa using h d hd]
  rfl

theorem nil : Accounts [] fun _ _ ↦ False := ⟨[], .nil, by simp, rfl⟩

theorem single {d : Diagnostic} (breach : Breach) (hkind : d.kind = .constraintError)
    (hproperty : d.property = some breach.property) :
    Accounts [d] fun b message ↦ b = breach ∧ message = d.message := by
  refine ⟨[(breach, d.message)], List.nodup_singleton _, by simp, ?_⟩
  simp [hkind, hproperty]

theorem append (h : Accounts found P) (hmore : Accounts more Q)
    (hdisjoint : ∀ breach message message', P breach message → ¬ Q breach message') :
    Accounts (found ++ more) fun breach message ↦ P breach message ∨ Q breach message := by
  obtain ⟨breaches, hnodup, hmem, hfound⟩ := h
  obtain ⟨breaches', hnodup', hmem', hmore⟩ := hmore
  refine ⟨breaches ++ breaches', ?_, fun breach message ↦ ?_, ?_⟩
  · rw [List.map_append]
    refine hnodup.append hnodup' ?_
    simp only [List.disjoint_left, List.mem_map]
    rintro _ ⟨entry, hentry, rfl⟩ ⟨other, hother, heq⟩
    have hP := (hmem entry.1 entry.2).1 hentry
    have hQ := (hmem' other.1 other.2).1 hother
    exact hdisjoint _ _ _ hP (heq ▸ hQ)
  · rw [List.mem_append, hmem, hmem']
  · rw [List.filter_append, List.map_append, hfound, hmore, List.map_append]

theorem flatMap {α : Type} {items : List α} (hitems : items.Nodup) {f : α → List Diagnostic}
    {P : α → Breach → String → Prop} (h : ∀ item, Accounts (f item) (P item))
    (hdisjoint : ∀ item other breach message message',
      P item breach message → P other breach message' → item = other) :
    Accounts (items.flatMap f) fun breach message ↦ ∃ item ∈ items, P item breach message := by
  choose breaches hnodup hmem hfound using h
  refine ⟨items.flatMap breaches, ?_, fun breach message ↦ ?_, ?_⟩
  · rw [List.map_flatMap]
    refine List.nodup_flatMap.2 ⟨fun item _ ↦ hnodup item, hitems.imp fun {item other} hne ↦ ?_⟩
    simp only [Function.onFun, List.disjoint_left, List.mem_map]
    rintro _ ⟨entry, hentry, rfl⟩ ⟨entry', hentry', heq⟩
    have hP := (hmem item entry.1 entry.2).1 hentry
    have hP' := (hmem other entry'.1 entry'.2).1 hentry'
    exact hne (hdisjoint _ _ _ _ _ hP (heq ▸ hP'))
  · simp only [List.mem_flatMap, hmem]
  · rw [List.filter_flatMap, List.map_flatMap, List.map_flatMap]
    exact List.flatMap_congr fun item _ ↦ hfound item

theorem optional {context : Context} (breach : Breach) (violation : Option Violation) :
    Accounts (violation.toList.map (Violation.report context breach.property)) fun b message ↦
      ∃ v, violation = some v ∧ b = breach ∧ message = v.message context := by
  cases violation with
  | none => exact nil.congr (by simp)
  | some v => exact (single breach rfl rfl).congr (by simp [Violation.report])

theorem filter_stamped (h : Accounts found P)
    («class» : Iri) (line : Option UInt32) : ∃ breaches : List (Breach × String),
      (breaches.map Prod.fst).Nodup ∧
      (∀ breach message, (breach, message) ∈ breaches ↔ P breach message) ∧
      ((found.map fun d ↦ { d with «class» := some «class» }).map fun d ↦ { d with line }).filter
        (·.kind = .constraintError) = breaches.map fun entry ↦ entry.1.report «class» line entry.2 := by
  obtain ⟨breaches, hnodup, hmem, hfound⟩ := h
  refine ⟨breaches, hnodup, hmem, ?_⟩
  let stamp (property : Option Iri) (message : String) : Diagnostic :=
    { kind := .constraintError, message, «class» := some «class», property, line }
  calc
    _ = (found.filter (·.kind = .constraintError)).map fun d ↦ { d with «class» := some «class», line } := by
      rw [List.map_map, List.filter_map]
      rfl
    _ = (found.filter (·.kind = .constraintError)).map fun d ↦ stamp d.property d.message := by
      refine List.map_congr_left fun d hd ↦ ?_
      have hkind : d.kind = .constraintError := by simpa using (List.mem_filter.1 hd).2
      simp only [stamp, ← hkind]
    _ = (breaches.map fun entry ↦ (some entry.1.property, entry.2)).map fun entry ↦
        stamp entry.1 entry.2 := by
      rw [← hfound, List.map_map]
      rfl
    _ = _ := List.map_map

end Accounts

end OntologyGuard.Validator
