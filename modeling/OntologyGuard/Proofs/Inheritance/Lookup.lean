import OntologyGuard.Proofs.Inheritance.Convergence

namespace OntologyGuard

/-- Of the same class, with the same constraints under every property. -/
structure ClassConstraints.Alike (c d : ClassConstraints) : Prop where
  sameClass : c.class = d.class
  sameGet : ∀ p, c.get? p = d.get? p

inductive ClassDefinition.Alike : ClassDefinition → ClassDefinition → Prop
  | restricted {c d : ClassConstraints} (h : c.Alike d) : Alike (.restricted c) (.restricted d)
  | datatype (words : DatatypeConstraints) : Alike (.datatype words) (.datatype words)
  | unconstrained : Alike .unconstrained .unconstrained

def Definitions.Alike (definitions other : Definitions) : Prop :=
  ∀ iri, Option.Rel ClassDefinition.Alike (definitions.get? iri) (other.get? iri)

namespace ClassConstraints.Alike

variable {c c' parent parent' : ClassConstraints}

theorem refl (c : ClassConstraints) : c.Alike c := ⟨rfl, fun _ ↦ rfl⟩

theorem symm (h : c.Alike c') : c'.Alike c := ⟨h.sameClass.symm, fun p ↦ (h.sameGet p).symm⟩

theorem relabel (h : parent.Alike parent') (iri : Iri) :
    (parent.relabel iri).Alike (parent'.relabel iri) := by
  refine ⟨rfl, fun p ↦ ?_⟩
  rw [get?_relabel, get?_relabel, h.sameGet]

theorem mergeParent (h : c.Alike c') (hparent : parent.Alike parent') :
    (c.mergeParent parent).child.Alike (c'.mergeParent parent').child := by
  refine ⟨?_, fun p ↦ ?_⟩
  · rw [class_mergeParent, class_mergeParent, h.sameClass]
  · rw [get?_mergeParent, get?_mergeParent, h.sameGet, hparent.sameGet, h.sameClass]

end ClassConstraints.Alike

theorem ClassDefinition.Alike.refl (definition : ClassDefinition) : definition.Alike definition := by
  cases definition with
  | restricted c => exact .restricted (.refl c)
  | datatype words => exact .datatype words
  | unconstrained => exact .unconstrained

theorem ClassDefinition.Alike.symm {definition other : ClassDefinition}
    (h : definition.Alike other) : other.Alike definition := by
  cases h with
  | restricted h => exact .restricted h.symm
  | datatype words => exact .datatype words
  | unconstrained => exact .unconstrained

namespace Definitions.Alike

variable {definitions other : Definitions} {iri : Iri}

theorem refl (definitions : Definitions) : definitions.Alike definitions := by
  intro iri
  cases definitions.get? iri with
  | none => exact .none
  | some definition => exact .some (.refl definition)

theorem symm (h : definitions.Alike other) : other.Alike definitions := by
  intro iri
  have hrel := h iri
  generalize definitions.get? iri = found, other.get? iri = found' at hrel ⊢
  cases hrel with
  | none => exact .none
  | some hd => exact .some hd.symm

theorem insert (h : definitions.Alike other) {definition definition' : ClassDefinition}
    (hd : definition.Alike definition') (iri : Iri) :
    Alike (definitions.insert iri definition) (other.insert iri definition') := by
  intro asked
  rw [OrderedMap.get?_insert, OrderedMap.get?_insert]
  split
  · exact .some hd
  · exact h asked

theorem restricted? (h : definitions.Alike other) {c : ClassConstraints}
    (hc : definitions.restricted? iri = some c) :
    ∃ d, other.restricted? iri = some d ∧ c.Alike d := by
  have hrel := h iri
  rw [Definitions.restricted?_eq_some_iff.1 hc] at hrel
  generalize hget : other.get? iri = found at hrel
  cases hrel with
  | some hd =>
    cases hd with
    | restricted hd => exact ⟨_, Definitions.restricted?_eq_some_iff.2 hget, hd⟩

theorem datatype (h : definitions.Alike other) {words : DatatypeConstraints}
    (hwords : definitions.get? iri = some (.datatype words)) :
    other.get? iri = some (.datatype words) := by
  have hrel := h iri
  rw [hwords] at hrel
  generalize other.get? iri = found at hrel ⊢
  cases hrel with
  | some hd =>
    cases hd with
    | datatype => rfl

theorem bind_get? (h : definitions.Alike other) (iri p : Iri) :
    (definitions.restricted? iri).bind (·.get? p) = (other.restricted? iri).bind (·.get? p) := by
  have hrel := h iri
  unfold Definitions.restricted?
  generalize definitions.get? iri = found, other.get? iri = found' at hrel ⊢
  cases hrel with
  | none => rfl
  | some hd =>
    cases hd with
    | restricted hc => exact hc.sameGet p
    | datatype words => rfl
    | unconstrained => rfl

theorem size_eq (h : definitions.Alike other) : definitions.size = other.size := by
  apply OrderedMap.size_eq_of_keys
  intro iri
  rw [OrderedMap.mem_keys_iff, OrderedMap.mem_keys_iff]
  have hrel := h iri
  generalize definitions.get? iri = found, other.get? iri = found' at hrel
  cases hrel with
  | none => simp
  | some hd => exact iff_of_true ⟨_, rfl⟩ ⟨_, rfl⟩

end Definitions.Alike

namespace Inheritance

variable {children : OrderedMap Iri (List Iri)} {definitions other : Definitions}

namespace Pass

variable {pass pass' : Pass}

theorem alike_inheritFrom (h : pass.definitions.Alike pass'.definitions)
    {parent parent' : ClassConstraints} (hparent : parent.Alike parent') (child : Iri) :
    (inheritFrom parent pass child).definitions.Alike
      (inheritFrom parent' pass' child).definitions := by
  have hchild := h child
  unfold inheritFrom
  generalize pass.definitions.get? child = own, pass'.definitions.get? child = own' at hchild ⊢
  cases hchild with
  | none => exact h.insert (.restricted (hparent.relabel child)) child
  | some hd =>
    cases hd with
    | restricted hown => exact h.insert (.restricted (hown.mergeParent hparent)) child
    | datatype words => exact h
    | unconstrained => exact h.insert (.restricted (hparent.relabel child)) child

theorem alike_inherit (h : pass.definitions.Alike pass'.definitions) (edge : Iri × Iri) :
    (pass.inherit edge).definitions.Alike (pass'.inherit edge).definitions := by
  have hparent := h edge.1
  unfold inherit
  generalize pass.definitions.get? edge.1 = parent, pass'.definitions.get? edge.1 = parent'
    at hparent ⊢
  cases hparent with
  | none => exact h
  | some hd =>
    cases hd with
    | restricted hparent => exact alike_inheritFrom h hparent edge.2
    | datatype words => exact h
    | unconstrained => exact h

theorem alike_foldl (edges : List (Iri × Iri)) (h : pass.definitions.Alike pass'.definitions) :
    (edges.foldl inherit pass).definitions.Alike (edges.foldl inherit pass').definitions := by
  induction edges generalizing pass pass' with
  | nil => exact h
  | cons edge rest ih => exact ih (alike_inherit h edge)

theorem alike_run (h : definitions.Alike other) :
    (run children definitions).definitions.Alike (run children other).definitions := by
  rw [run_eq_foldl, run_eq_foldl]
  exact alike_foldl _ h

theorem Settled.alike {edge : Iri × Iri} (hsettled : Settled definitions edge)
    (h : definitions.Alike other) : Settled other edge := by
  intro parent' hparent'
  obtain ⟨parent, hparent, hsame⟩ := h.symm.restricted? hparent'
  rcases hsettled parent hparent with ⟨words, hwords⟩ | ⟨own, hown, hall⟩
  · exact .inl ⟨words, h.datatype hwords⟩
  · obtain ⟨own', hown', halike⟩ := h.restricted? hown
    refine .inr ⟨own', hown', ?_⟩
    intro p inherited hinherited
    rw [← halike.sameGet]
    exact hall p inherited ((hsame.sameGet p).symm.trans hinherited)

theorem changes_run_eq_zero (h : definitions.Alike other)
    (hzero : (run children definitions).changes = 0) : (run children other).changes = 0 := by
  have hsettled := (run_of_changes_eq_zero hzero).2.2
  exact changes_run_of_settled fun edge hedge ↦ (hsettled edge hedge).alike h

end Pass

theorem quiet_afterPass_eq {state state' : Inheritance}
    (h : state.definitions.Alike state'.definitions) :
    (afterPass children state).quiet = (afterPass children state').quiet :=
  decide_eq_decide.2 ⟨Pass.changes_run_eq_zero h, Pass.changes_run_eq_zero h.symm⟩

theorem alike_iterate (n : Nat) {state state' : Inheritance}
    (h : state.definitions.Alike state'.definitions) :
    (iterate children n state).definitions.Alike (iterate children n state').definitions := by
  induction n generalizing state state' with
  | zero => exact h
  | succ n ih =>
    have hnext : (afterPass children state).definitions.Alike
        (afterPass children state').definitions := Pass.alike_run h
    rw [iterate_succ, iterate_succ, quiet_afterPass_eq h]
    split
    · exact hnext
    · exact ih hnext

theorem alike_run (children : OrderedMap Iri (List Iri)) (n : Nat) (h : definitions.Alike other) :
    (run definitions children n).definitions.Alike (run other children n).definitions :=
  alike_iterate n h

end Inheritance

end OntologyGuard
