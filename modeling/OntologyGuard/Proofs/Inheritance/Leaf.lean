import OntologyGuard.Proofs.Inheritance.Convergence

namespace OntologyGuard.Inheritance

variable {children children' : OrderedMap Iri (List Iri)} {definitions definitions' : Definitions}
  {pass pass' : Pass} {edge : Iri × Iri} {leaf : Iri} {n n' : Nat} {r : Diagnostic}

/-- The same definitions and the same reports, but for one class. What is reported on a class is known
by its label. -/
structure AgreeExcept (leaf : Iri) (definitions definitions' : Definitions)
    (found found' : List Diagnostic) : Prop where
  labelled : definitions.Labelled
  definitions : ∀ iri, iri ≠ leaf → definitions.get? iri = definitions'.get? iri
  reports : ∀ r, r.class ≠ some leaf → (r ∈ found ↔ r ∈ found')

theorem Pass.inherit_congr (hparent : pass.definitions.get? edge.1 = pass'.definitions.get? edge.1)
    (hchild : pass.definitions.get? edge.2 = pass'.definitions.get? edge.2) :
    (pass.inherit edge).definitions.get? edge.2 = (pass'.inherit edge).definitions.get? edge.2 ∧
      reports pass.definitions edge = reports pass'.definitions edge := by
  -- a step looks at the definitions at the two ends of its edge and at nothing else
  unfold reports inherit inheritFrom
  dsimp only
  rw [hparent, hchild]
  cases pass'.definitions.get? edge.1 with
  | none => exact ⟨hchild, rfl⟩
  | some definition =>
    cases definition with
    | datatype words => exact ⟨hchild, rfl⟩
    | unconstrained => exact ⟨hchild, rfl⟩
    | restricted parent =>
      cases hown : pass'.definitions.get? edge.2 with
      | none => simp
      | some definition => cases definition <;> simp [hchild, hown]

theorem Pass.class_of_mem_reports (h : definitions.Labelled) (hr : r ∈ reports definitions edge) :
    r.class = some edge.2 := by
  obtain ⟨parent, child, -, hchild, hr⟩ := mem_reports.1 hr
  obtain ⟨p, own, inherited, hown, -, hr⟩ := ClassConstraints.mem_diagnostics_mergeParent.1 hr
  rw [(PropertyConstraints.label_of_mem_mergeParent hr).2.1]
  exact ((h edge.2 child hchild).2 p own hown).1

namespace AgreeExcept

theorem inherit (h : AgreeExcept leaf pass.definitions pass'.definitions pass.diagnostics
    pass'.diagnostics) (hparent : edge.1 ≠ leaf) (hchild : edge.2 ≠ leaf) :
    AgreeExcept leaf (pass.inherit edge).definitions (pass'.inherit edge).definitions
      (pass.inherit edge).diagnostics (pass'.inherit edge).diagnostics := by
  obtain ⟨hsame, hreports⟩ := Pass.inherit_congr (h.definitions _ hparent) (h.definitions _ hchild)
  refine ⟨Pass.inherit_labelled h.labelled edge, ?_, ?_⟩
  · intro iri hiri
    by_cases heq : iri = edge.2
    · rw [heq, hsame]
    · rw [Pass.get?_inherit_of_ne heq, Pass.get?_inherit_of_ne heq, h.definitions iri hiri]
  · intro r hr
    rw [Pass.diagnostics_inherit, Pass.diagnostics_inherit, List.mem_append, List.mem_append,
      h.reports r hr, hreports]

theorem inherit_leaf (h : AgreeExcept leaf pass.definitions pass'.definitions pass.diagnostics
    pass'.diagnostics) (hchild : edge.2 = leaf) :
    AgreeExcept leaf (pass.inherit edge).definitions pass'.definitions
      (pass.inherit edge).diagnostics pass'.diagnostics := by
  refine ⟨Pass.inherit_labelled h.labelled edge, ?_, ?_⟩
  · intro iri hiri
    rw [Pass.get?_inherit_of_ne (hchild ▸ hiri), h.definitions iri hiri]
  · intro r hr
    rw [Pass.diagnostics_inherit, List.mem_append, h.reports r hr]
    refine or_iff_left fun hreport ↦ hr ?_
    rw [Pass.class_of_mem_reports h.labelled hreport, hchild]

theorem foldl {edges : List (Iri × Iri)} (hparents : ∀ edge ∈ edges, edge.1 ≠ leaf)
    (h : AgreeExcept leaf pass.definitions pass'.definitions pass.diagnostics pass'.diagnostics) :
    AgreeExcept leaf (edges.foldl Pass.inherit pass).definitions
      ((edges.filter fun edge ↦ edge.2 ≠ leaf).foldl Pass.inherit pass').definitions
      (edges.foldl Pass.inherit pass).diagnostics
      ((edges.filter fun edge ↦ edge.2 ≠ leaf).foldl Pass.inherit pass').diagnostics := by
  induction edges generalizing pass pass' with
  | nil => exact h
  | cons edge rest ih =>
    obtain ⟨hparent, hrest⟩ := List.forall_mem_cons.1 hparents
    by_cases hchild : edge.2 = leaf
    · rw [List.filter_cons_of_neg (by simp [hchild])]
      exact ih hrest (h.inherit_leaf hchild)
    · rw [List.filter_cons_of_pos (by simp [hchild])]
      exact ih hrest (h.inherit hparent hchild)

end AgreeExcept

def passed (children : OrderedMap Iri (List Iri)) (definitions : Definitions) (n : Nat) :
    Inheritance :=
  (afterPass children)^[n] { definitions, diagnostics := [], passes := 0, quiet := false }

theorem passed_succ : passed children definitions (n + 1) =
    afterPass children (passed children definitions n) :=
  Function.iterate_succ_apply' _ _ _

theorem exists_iterate_eq (n : Nat) (state : Inheritance) :
    ∃ k, iterate children n state = (afterPass children)^[k] state := by
  induction n generalizing state with
  | zero => exact ⟨0, rfl⟩
  | succ n ih =>
    rw [iterate_succ]
    split
    · exact ⟨1, rfl⟩
    · obtain ⟨k, hk⟩ := ih (afterPass children state)
      exact ⟨k + 1, hk⟩

theorem afterPass_eq_foldl (children : OrderedMap Iri (List Iri)) (state : Inheritance) :
    let pass := (edgesOf children).foldl Pass.inherit
      { definitions := state.definitions, diagnostics := state.diagnostics }
    (afterPass children state).definitions = pass.definitions ∧
      (afterPass children state).diagnostics = pass.diagnostics := by
  dsimp only
  rw [Pass.foldl_inherit_eq, ← Pass.run_eq_foldl]
  exact ⟨rfl, rfl⟩

/-- What a quiet run returns is reached after some number of passes, and more of them find what the
quiet one has found. -/
theorem exists_passed (hquiet : (run definitions children n).quiet = true) :
    ∃ k, ∀ m, (passed children definitions (k + m)).definitions =
        (run definitions children n).definitions ∧
      ∀ r, r ∈ (passed children definitions (k + m)).diagnostics ↔
        r ∈ (run definitions children n).diagnostics := by
  have hlast : (afterPasses children definitions n).quiet = true := hquiet
  obtain ⟨hzero, hreports⟩ := iterate_of_quiet n _ rfl hlast
  obtain ⟨k, hk⟩ : ∃ k, afterPasses children definitions n = passed children definitions k :=
    exists_iterate_eq n _
  refine ⟨k, fun m ↦ ?_⟩
  -- a pass over settled definitions finds what the quiet pass has found, and leaves them settled
  induction m with
  | zero =>
    rw [Nat.add_zero, ← hk]
    exact ⟨rfl, fun r ↦ (mem_run_diagnostics_of_quiet hquiet).symm⟩
  | succ m ih =>
    obtain ⟨hdefinitions, hdiagnostics⟩ := ih
    rw [← Nat.add_assoc, passed_succ]
    unfold afterPass
    dsimp only
    rw [hdefinitions]
    refine ⟨(Pass.run_of_changes_eq_zero hzero).1, fun r ↦ ?_⟩
    rw [List.mem_append, hdiagnostics]
    exact or_iff_left_of_imp fun hr ↦ (mem_run_diagnostics_of_quiet hquiet).2 (hreports r hr)

namespace AgreeExcept

theorem after_passes (hparents : ∀ edge ∈ edgesOf children, edge.1 ≠ leaf)
    (hedges : ((edgesOf children).filter fun edge ↦ edge.2 ≠ leaf) = edgesOf children')
    (h : AgreeExcept leaf definitions definitions' [] []) (m : Nat) :
    AgreeExcept leaf (passed children definitions m).definitions
      (passed children' definitions' m).definitions
      (passed children definitions m).diagnostics
      (passed children' definitions' m).diagnostics := by
  induction m with
  | zero => exact h
  | succ m ih =>
    obtain ⟨hdefinitions, hdiagnostics⟩ :=
      afterPass_eq_foldl children (passed children definitions m)
    obtain ⟨hdefinitions', hdiagnostics'⟩ :=
      afterPass_eq_foldl children' (passed children' definitions' m)
    rw [passed_succ, passed_succ, hdefinitions, hdiagnostics, hdefinitions', hdiagnostics', ← hedges]
    exact ih.foldl hparents

/-- Runs that end quietly agree on all classes but one that is no parent, whether or not they have the
edges to it. -/
theorem after_run (hparents : ∀ edge ∈ edgesOf children, edge.1 ≠ leaf)
    (hedges : ((edgesOf children).filter fun edge ↦ edge.2 ≠ leaf) = edgesOf children')
    (h : AgreeExcept leaf definitions definitions' [] [])
    (hquiet : (run definitions children n).quiet = true)
    (hquiet' : (run definitions' children' n').quiet = true) :
    AgreeExcept leaf (run definitions children n).definitions
      (run definitions' children' n').definitions
      (run definitions children n).diagnostics
      (run definitions' children' n').diagnostics := by
  obtain ⟨k, hreached⟩ := exists_passed hquiet
  obtain ⟨k', hreached'⟩ := exists_passed hquiet'
  -- one run may stop before the other, but both can go on to the sum of their passes
  obtain ⟨hdefinitions, hdiagnostics⟩ := hreached k'
  obtain ⟨hdefinitions', hdiagnostics'⟩ := hreached' k
  rw [Nat.add_comm] at hdefinitions' hdiagnostics'
  have hagree := h.after_passes hparents hedges (k + k')
  refine ⟨run_labelled h.labelled, ?_, ?_⟩
  · rw [← hdefinitions, ← hdefinitions']
    exact hagree.definitions
  · intro r hr
    rw [← hdiagnostics, ← hdiagnostics', hagree.reports r hr]

end AgreeExcept

end OntologyGuard.Inheritance
