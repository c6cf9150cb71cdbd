import Mathlib.Data.String.Basic
import OntologyGuard.Proofs.Xsd.Checker

namespace OntologyGuard.Xsd

/-- Identifiers that are equal or the two spellings of one name. -/
inductive SameType : String → String → Prop where
  | refl (id : String) : SameType id id
  | inFull (name : String) : SameType (Checker.qualifier ++ name) (namespaceIri ++ name)
  | qualified (name : String) : SameType (namespaceIri ++ name) (Checker.qualifier ++ name)

/-- An identifier, in either spelling, of a type that can be checked. -/
def Supported (id : String) : Prop :=
  ∃ type : Datatype, id = Checker.qualifier ++ type.localName ∨ id = namespaceIri ++ type.localName

namespace Checker

variable {id key asked : String} {type : Datatype}

theorem localName?_eq_some_iff {name : String} :
    localName? id = some name ↔ id = qualifier ++ name ∨ id = namespaceIri ++ name := by
  constructor
  · intro h
    unfold localName? at h
    split at h
    next hstart =>
      obtain rfl := Option.some.inj h
      exact .inl (Text.eq_append_of_startsWith hstart)
    next =>
      split at h
      next hstart =>
        obtain rfl := Option.some.inj h
        exact .inr (Text.eq_append_of_startsWith hstart)
      next => cases h
  · rintro (rfl | rfl)
    · exact localName?_qualifier name
    · exact localName?_namespaceIri name

theorem supported_iff : Supported id ↔ ∃ type, find id = .ok type := by
  simp only [Supported, find_eq_ok_iff, localName?_eq_some_iff]

theorem sameType_iff : SameType id key ↔
    key = id ∨ ∃ name, localName? id = some name ∧ localName? key = some name := by
  constructor
  · intro h
    cases h with
    | refl => exact .inl rfl
    | inFull name => exact .inr ⟨name, localName?_qualifier name, localName?_namespaceIri name⟩
    | qualified name => exact .inr ⟨name, localName?_namespaceIri name, localName?_qualifier name⟩
  · rintro (rfl | ⟨name, hid, hkey⟩)
    · exact .refl key
    · rcases localName?_eq_some_iff.1 hid with rfl | rfl <;>
        rcases localName?_eq_some_iff.1 hkey with rfl | rfl <;> constructor

theorem mem_spellings_iff : key ∈ spellings id ↔ SameType id key := by
  rw [sameType_iff, spellings]
  cases hid : localName? id with
  | none => simp
  | some name =>
    have hself : key = id → localName? key = some name := fun h ↦ h ▸ hid
    simp only [List.mem_cons, List.not_mem_nil, or_false, ← localName?_eq_some_iff,
      Option.some.injEq, exists_eq_left', or_iff_right_of_imp hself]

instance (id key : String) : Decidable (SameType id key) := decidable_of_iff _ mem_spellings_iff

theorem find_eq_ok_iff_of_sameType (h : SameType id key) : find key = .ok type ↔ find id = .ok type :=
  find_of_mem_spellings (mem_spellings_iff.2 h)

theorem supported_iff_of_sameType (h : SameType id key) : Supported key ↔ Supported id := by
  simp only [supported_iff, find_eq_ok_iff_of_sameType h]

end Checker

namespace SameType

variable {a b c : String}

theorem symm (h : SameType a b) : SameType b a := by
  cases h <;> constructor

theorem trans (h : SameType a b) (h' : SameType b c) : SameType a c := by
  rw [Checker.sameType_iff] at *
  rcases h with rfl | ⟨name, ha, hb⟩
  · exact h'
  · rcases h' with rfl | ⟨name', hb', hc⟩
    · exact .inr ⟨name, ha, hb⟩
    · exact .inr ⟨name, ha, hc.trans (hb'.symm.trans hb)⟩

end SameType

end OntologyGuard.Xsd
