import OntologyGuard.Proofs.Inheritance.Conflict

namespace OntologyGuard

/-- Where the upper class has constraints, the lower class has at least as tight ones. -/
def Definitions.Meets (definitions : Definitions) (lower upper : Iri) : Prop :=
  ∀ required, definitions.restricted? upper = some required →
    ∃ constraints, definitions.restricted? lower = some constraints ∧
      ∀ p inherited, required.get? p = some inherited →
        ∃ own, constraints.get? p = some own ∧ own.AtLeastAsTight inherited

namespace Definitions

variable {definitions : Definitions} {a b c : Iri}

theorem Meets.refl (definitions : Definitions) (c : Iri) : definitions.Meets c c :=
  fun required h ↦ ⟨required, h, fun _ own hown ↦ ⟨own, hown, .refl own⟩⟩

theorem Meets.trans (hab : definitions.Meets a b) (hbc : definitions.Meets b c) :
    definitions.Meets a c := by
  intro required hrequired
  obtain ⟨middle, hmiddle, htight⟩ := hbc required hrequired
  obtain ⟨constraints, hconstraints, htight'⟩ := hab middle hmiddle
  refine ⟨constraints, hconstraints, fun p inherited hinherited ↦ ?_⟩
  obtain ⟨own, hown, h⟩ := htight p inherited hinherited
  obtain ⟨own', hown', h'⟩ := htight' p own hown
  exact ⟨own', hown', h'.trans h⟩

end Definitions

namespace Inheritance

variable {children : OrderedMap Iri (List Iri)} {definitions : Definitions} {n : Nat}

theorem quiet_of_diagnostics_eq_nil (h : (run definitions children n).diagnostics = []) :
    (run definitions children n).quiet = true := by
  rw [← Bool.not_eq_false]
  intro hnot
  have hmem := mem_run_diagnostics.2 (.inr ⟨hnot, rfl⟩)
  rw [h] at hmem
  cases hmem

theorem meets_of_diagnostics_eq_nil (h : (run definitions children n).diagnostics = [])
    {edge : Iri × Iri} (hedge : edge ∈ edgesOf children)
    (hplain : ∀ words, (run definitions children n).definitions.get? edge.2 ≠
      some (.datatype words)) :
    (run definitions children n).definitions.Meets edge.2 edge.1 := by
  intro parent hparent
  obtain ⟨hsettled, hreports⟩ := run_of_quiet (quiet_of_diagnostics_eq_nil h) edge hedge
  rcases hsettled parent hparent with ⟨words, hwords⟩ | ⟨child, hchild, -⟩
  · exact absurd hwords (hplain words)
  · refine ⟨child, hchild, fun p inherited hinherited ↦ ?_⟩
    obtain ⟨own, hown, hmet⟩ := atLeastAsTight_of_settled hsettled hparent hchild hinherited
    refine ⟨own, hown, hmet (List.eq_nil_iff_forall_not_mem.2 fun r hr ↦ ?_)⟩
    have hmem := hreports r (Pass.mem_reports.2 ⟨parent, child, hparent, hchild,
      ClassConstraints.mem_diagnostics_mergeParent.2 ⟨p, own, inherited, hown, hinherited, hr⟩⟩)
    rw [h] at hmem
    cases hmem

theorem run_defined {iri : Iri} (h : ∃ definition, definitions.get? iri = some definition) :
    ∃ definition, (run definitions children n).definitions.get? iri = some definition := by
  refine run_induction children definitions n (motive := fun definitions _ ↦
    ∃ definition, definitions.get? iri = some definition) h fun pass edge _ hdefined ↦ ?_
  have hinsert (c : ClassConstraints) :
      ∃ definition, (pass.definitions.insert edge.2 (.restricted c)).get? iri = some definition := by
    rw [OrderedMap.get?_insert]
    split
    · exact ⟨_, rfl⟩
    · exact hdefined
  rcases Pass.inherit_cases pass edge with ⟨-, he⟩ | ⟨parent, own, -, -, he⟩ |
    ⟨parent, -, -, he⟩
  · rwa [he]
  · rw [he]
    exact hinsert _
  · rw [he]
    exact hinsert _

end Inheritance

end OntologyGuard
