import OntologyGuard.Proofs.Inheritance.ClassMerge

/-!
A run of inheritance as a walk over edges. Each step hands one parent's constraints to one child, so
what every step keeps holds at the end of a run, and a pass without changes leaves each of its edges
settled.
-/

namespace OntologyGuard

def Definitions.restricted? (definitions : Definitions) (iri : Iri) : Option ClassConstraints :=
  (definitions.get? iri).bind ClassDefinition.asRestricted?

theorem Definitions.restricted?_eq_some_iff {definitions : Definitions} {iri : Iri}
    {c : ClassConstraints} :
    definitions.restricted? iri = some c ↔ definitions.get? iri = some (.restricted c) := by
  unfold restricted?
  cases definitions.get? iri with
  | none => simp
  | some definition => cases definition <;> simp [ClassDefinition.asRestricted?]

theorem Definitions.mem_restrictions {definitions : Definitions} {iri : Iri}
    {c : ClassConstraints} :
    (iri, c) ∈ definitions.restrictions ↔ definitions.restricted? iri = some c := by
  rw [restricted?_eq_some_iff, OrderedMap.get?_eq_some_iff, restrictions, List.mem_filterMap]
  constructor
  · rintro ⟨⟨other, definition⟩, hmem, heq⟩
    cases definition with
    | restricted own =>
      obtain ⟨rfl, rfl⟩ := Prod.mk.inj (Option.some.inj heq)
      exact hmem
    | _ => cases heq
  · exact fun hmem ↦ ⟨_, hmem, rfl⟩

theorem Definitions.restricted?_insert (definitions : Definitions) (iri : Iri)
    (c : ClassConstraints) (other : Iri) :
    restricted? (definitions.insert iri (.restricted c)) other =
      if other = iri then some c else definitions.restricted? other := by
  unfold restricted?
  rw [OrderedMap.get?_insert]
  split <;> rfl

namespace Inheritance

variable {children : OrderedMap Iri (List Iri)} {definitions : Definitions}

def edgesOf (children : OrderedMap Iri (List Iri)) : List (Iri × Iri) :=
  children.entries.flatMap fun entry ↦ entry.2.map (entry.1, ·)

namespace Pass

def inherit (pass : Pass) (edge : Iri × Iri) : Pass :=
  match pass.definitions.get? edge.1 with
  | some (.restricted parent) => inheritFrom parent pass edge.2
  | _ => pass

/-- A parent keeps its constraints while its children inherit them, even where it is its own
child. -/
theorem get?_inheritFrom {pass : Pass} {iri : Iri} {parent : ClassConstraints}
    (h : pass.definitions.get? iri = some (.restricted parent)) (child : Iri) :
    (inheritFrom parent pass child).definitions.get? iri = some (.restricted parent) := by
  by_cases hc : child = iri
  · subst hc
    simp [inheritFrom, h, ClassConstraints.mergeParent_self]
  · have hne : iri ≠ child := fun e ↦ hc e.symm
    unfold inheritFrom
    split <;> simp [hne, h]

theorem visit_eq_foldl (pass : Pass) (entry : Iri × List Iri) :
    visit pass entry = (entry.2.map (entry.1, ·)).foldl inherit pass := by
  obtain ⟨iri, list⟩ := entry
  unfold visit
  split
  next parent h =>
    induction list generalizing pass with
    | nil => rfl
    | cons child rest ih =>
      have hstep : pass.inherit (iri, child) = inheritFrom parent pass child := by
        simp only [inherit, h]
      rw [List.foldl_cons, List.map_cons, List.foldl_cons, hstep]
      exact ih _ (get?_inheritFrom h child)
  next h =>
    induction list with
    | nil => rfl
    | cons child rest ih =>
      have hstep : pass.inherit (iri, child) = pass := by
        unfold inherit
        split
        next parent hparent => exact absurd hparent (h parent)
        next => rfl
      rw [List.map_cons, List.foldl_cons, hstep]
      exact ih h

theorem run_eq_foldl (children : OrderedMap Iri (List Iri)) (definitions : Definitions) :
    run children definitions = (edgesOf children).foldl inherit { definitions } := by
  rw [run, edgesOf, List.foldl_flatMap]
  congr 1
  funext pass entry
  exact visit_eq_foldl pass entry

/-- All that a step can do, by what it finds at the two ends of its edge. -/
theorem inherit_cases (pass : Pass) (edge : Iri × Iri) :
    ((pass.definitions.restricted? edge.1 = none ∨
        ∃ d, pass.definitions.get? edge.2 = some (.datatype d)) ∧ pass.inherit edge = pass) ∨
    (∃ parent own, pass.definitions.restricted? edge.1 = some parent ∧
      pass.definitions.restricted? edge.2 = some own ∧
      pass.inherit edge =
        { definitions :=
            pass.definitions.insert edge.2 (.restricted (own.mergeParent parent).child)
          diagnostics := pass.diagnostics ++ (own.mergeParent parent).diagnostics
          changes := pass.changes + (own.mergeParent parent).changes }) ∨
    (∃ parent, pass.definitions.restricted? edge.1 = some parent ∧
      pass.definitions.restricted? edge.2 = none ∧
      pass.inherit edge =
        { definitions := pass.definitions.insert edge.2 (.restricted (parent.relabel edge.2))
          diagnostics := pass.diagnostics
          changes := pass.changes + 1 }) := by
  unfold inherit Definitions.restricted?
  cases hparent : pass.definitions.get? edge.1 with
  | none => exact .inl ⟨.inl rfl, rfl⟩
  | some definition =>
    cases definition with
    | datatype d => exact .inl ⟨.inl rfl, rfl⟩
    | unconstrained => exact .inl ⟨.inl rfl, rfl⟩
    | restricted parent =>
      simp only [inheritFrom]
      cases hchild : pass.definitions.get? edge.2 with
      | none => exact .inr (.inr ⟨parent, rfl, rfl, rfl⟩)
      | some definition =>
        cases definition with
        | datatype d => exact .inl ⟨.inr ⟨d, rfl⟩, rfl⟩
        | unconstrained => exact .inr (.inr ⟨parent, rfl, rfl, rfl⟩)
        | restricted own => exact .inr (.inl ⟨parent, own, rfl, rfl, rfl⟩)

theorem foldl_induction {motive : Pass → Prop} {edges : List (Iri × Iri)} (pass : Pass)
    (start : motive pass)
    (step : ∀ pass edge, edge ∈ edges → motive pass → motive (pass.inherit edge)) :
    motive (edges.foldl inherit pass) := by
  induction edges generalizing pass with
  | nil => exact start
  | cons edge rest ih =>
    exact ih _ (step pass edge List.mem_cons_self start) fun pass e he ↦
      step pass e (List.mem_cons_of_mem _ he)

theorem inherit_eq (pass : Pass) (edge : Iri × Iri) :
    pass.inherit edge =
      { definitions := (inherit { definitions := pass.definitions } edge).definitions
        diagnostics :=
          pass.diagnostics ++ (inherit { definitions := pass.definitions } edge).diagnostics
        changes := pass.changes + (inherit { definitions := pass.definitions } edge).changes } := by
  unfold inherit inheritFrom
  cases pass.definitions.get? edge.1 with
  | none => simp
  | some definition =>
    cases definition with
    | datatype d => simp
    | unconstrained => simp
    | restricted parent =>
      cases pass.definitions.get? edge.2 with
      | none => simp
      | some definition => cases definition <;> simp

theorem foldl_inherit_eq (edges : List (Iri × Iri)) (pass : Pass) :
    edges.foldl inherit pass =
      { definitions := (edges.foldl inherit { definitions := pass.definitions }).definitions
        diagnostics := pass.diagnostics ++
          (edges.foldl inherit { definitions := pass.definitions }).diagnostics
        changes := pass.changes +
          (edges.foldl inherit { definitions := pass.definitions }).changes } := by
  induction edges generalizing pass with
  | nil => simp
  | cons edge rest ih =>
    rw [List.foldl_cons, List.foldl_cons, ih (pass.inherit edge),
      ih (inherit { definitions := pass.definitions } edge), inherit_eq pass edge]
    simp [Nat.add_assoc]

theorem changes_le_inherit (pass : Pass) (edge : Iri × Iri) :
    pass.changes ≤ (pass.inherit edge).changes := by
  rw [inherit_eq]
  exact Nat.le_add_right _ _

/-- What an edge is like when there is nothing to hand down along it: its child cannot inherit, or
has settled all that its parent requires. -/
def Settled (definitions : Definitions) (edge : Iri × Iri) : Prop :=
  ∀ parent, definitions.restricted? edge.1 = some parent →
    (∃ d, definitions.get? edge.2 = some (.datatype d)) ∨
    ∃ own, definitions.restricted? edge.2 = some own ∧
      ∀ p inherited, parent.get? p = some inherited →
        ∃ c, own.get? p = some c ∧ (c.mergeParent inherited).1.agrees c = true

theorem inherit_of_changes_eq {pass : Pass} {edge : Iri × Iri}
    (h : (pass.inherit edge).changes = pass.changes) :
    (pass.inherit edge).definitions = pass.definitions ∧ Settled pass.definitions edge := by
  rcases inherit_cases pass edge with ⟨hnothing, he⟩ | ⟨parent, own, hparent, hown, he⟩ |
    ⟨parent, hparent, hchild, he⟩
  · refine ⟨by rw [he], fun parent hparent ↦ ?_⟩
    rcases hnothing with hnone | hdatatype
    · rw [hnone] at hparent
      cases hparent
    · exact .inl hdatatype
  · have hzero : (own.mergeParent parent).changes = 0 := by
      rw [he] at h
      exact Nat.left_eq_add.1 h.symm
    obtain ⟨hall, hsame⟩ := ClassConstraints.settled_of_changes_eq_zero hzero
    refine ⟨?_, fun parent' hparent' ↦ .inr ⟨own, hown, ?_⟩⟩
    · rw [he, hsame]
      exact OrderedMap.insert_eq_self (Definitions.restricted?_eq_some_iff.1 hown)
    · obtain rfl := Option.some.inj (hparent.symm.trans hparent')
      exact hall
  · rw [he] at h
    exact absurd h (Nat.succ_ne_self _)

def reports (definitions : Definitions) (edge : Iri × Iri) : List Diagnostic :=
  (inherit { definitions } edge).diagnostics

theorem diagnostics_inherit (pass : Pass) (edge : Iri × Iri) :
    (pass.inherit edge).diagnostics = pass.diagnostics ++ reports pass.definitions edge := by
  rw [inherit_eq]
  rfl

theorem mem_reports {edge : Iri × Iri} {r : Diagnostic} :
    r ∈ reports definitions edge ↔
      ∃ parent child, definitions.restricted? edge.1 = some parent ∧
        definitions.restricted? edge.2 = some child ∧
        r ∈ (child.mergeParent parent).diagnostics := by
  unfold reports
  rcases inherit_cases { definitions } edge with ⟨hnothing, he⟩ | ⟨parent, own, hparent, hown, he⟩ |
    ⟨parent, hparent, hchild, he⟩
  · rw [he]
    refine ⟨fun hr ↦ absurd hr List.not_mem_nil, ?_⟩
    rintro ⟨parent, child, hparent, hchild, -⟩
    rcases hnothing with hnone | ⟨d, hd⟩
    · cases hnone.symm.trans hparent
    · cases hd.symm.trans (Definitions.restricted?_eq_some_iff.1 hchild)
  · rw [he, List.nil_append]
    constructor
    · exact fun hr ↦ ⟨parent, own, hparent, hown, hr⟩
    · rintro ⟨parent', own', hparent', hown', hr⟩
      obtain rfl := Option.some.inj (hparent.symm.trans hparent')
      obtain rfl := Option.some.inj (hown.symm.trans hown')
      exact hr
  · rw [he]
    refine ⟨fun hr ↦ absurd hr List.not_mem_nil, ?_⟩
    rintro ⟨-, child, -, hchild', -⟩
    cases hchild.symm.trans hchild'

/-- Steps that count no change stay where they are, and all their edges are settled. -/
theorem foldl_of_changes_eq {edges : List (Iri × Iri)} {pass : Pass}
    (h : (edges.foldl inherit pass).changes = pass.changes) :
    (edges.foldl inherit pass).definitions = pass.definitions ∧
      (edges.foldl inherit pass).diagnostics =
        pass.diagnostics ++ edges.flatMap (reports pass.definitions) ∧
      ∀ edge ∈ edges, Settled pass.definitions edge := by
  induction edges generalizing pass with
  | nil => simp
  | cons edge rest ih =>
    rw [List.foldl_cons] at h ⊢
    have hle : (pass.inherit edge).changes ≤ (rest.foldl inherit (pass.inherit edge)).changes := by
      rw [foldl_inherit_eq]
      exact Nat.le_add_right _ _
    have heq : (pass.inherit edge).changes = pass.changes :=
      Nat.le_antisymm (h ▸ hle) (changes_le_inherit pass edge)
    obtain ⟨hstay, hsettled⟩ := inherit_of_changes_eq heq
    obtain ⟨hdefinitions, hdiagnostics, hrest⟩ := ih (h.trans heq.symm)
    rw [hstay] at hdefinitions hdiagnostics hrest
    refine ⟨hdefinitions, ?_, List.forall_mem_cons.2 ⟨hsettled, hrest⟩⟩
    rw [hdiagnostics, inherit_eq, List.flatMap_cons, List.append_assoc]
    rfl

theorem run_of_changes_eq_zero (h : (run children definitions).changes = 0) :
    (run children definitions).definitions = definitions ∧
      (run children definitions).diagnostics =
        (edgesOf children).flatMap (reports definitions) ∧
      ∀ edge ∈ edgesOf children, Settled definitions edge := by
  rw [run_eq_foldl] at h ⊢
  simpa using foldl_of_changes_eq h

end Pass

theorem iterate_induction {motive : Definitions → List Diagnostic → Prop}
    (step : ∀ pass edge, edge ∈ edgesOf children → motive pass.definitions pass.diagnostics →
      motive (Pass.inherit pass edge).definitions (Pass.inherit pass edge).diagnostics)
    (n : Nat) (state : Inheritance) (start : motive state.definitions state.diagnostics) :
    motive (iterate children n state).definitions (iterate children n state).diagnostics := by
  induction n generalizing state with
  | zero => exact start
  | succ n ih =>
    let begin : Pass := { definitions := state.definitions, diagnostics := state.diagnostics }
    have hpass : motive (Pass.run children state.definitions).definitions
        (state.diagnostics ++ (Pass.run children state.definitions).diagnostics) := by
      have hfold := Pass.foldl_induction
        (motive := fun pass ↦ motive pass.definitions pass.diagnostics) begin start step
      rw [Pass.foldl_inherit_eq] at hfold
      rwa [Pass.run_eq_foldl]
    unfold iterate
    dsimp only
    split
    · exact hpass
    · exact ih _ hpass

theorem iterate_of_quiet (n : Nat) (state : Inheritance) (hstate : state.quiet = false)
    (h : (iterate children n state).quiet = true) :
    (Pass.run children (iterate children n state).definitions).changes = 0 ∧
      ∀ r ∈ (Pass.run children (iterate children n state).definitions).diagnostics,
        r ∈ (iterate children n state).diagnostics := by
  induction n generalizing state with
  | zero => exact absurd (hstate.symm.trans h) Bool.false_ne_true
  | succ n ih =>
    unfold iterate at h ⊢
    dsimp only at h ⊢
    split at h
    next hq =>
      rw [if_pos hq]
      have hzero : (Pass.run children state.definitions).changes = 0 := of_decide_eq_true hq
      have hstay := (Pass.run_of_changes_eq_zero hzero).1
      simp only [hstay]
      exact ⟨hzero, fun r hr ↦ List.mem_append_right _ hr⟩
    next hq =>
      rw [if_neg hq]
      exact ih _ (Bool.eq_false_iff.2 hq) h

end Inheritance

end OntologyGuard
