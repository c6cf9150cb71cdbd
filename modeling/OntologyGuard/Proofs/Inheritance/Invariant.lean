import OntologyGuard.Proofs.Inheritance.Pass

namespace OntologyGuard

namespace ClassConstraints

/-- The class and its constraints are labelled with the class and the properties that they are
stored under. -/
def Labelled (c : ClassConstraints) (iri : Iri) : Prop :=
  c.class = iri ∧ ∀ p pc, c.get? p = some pc → pc.class = some iri ∧ pc.property = some p

def Uncrossed (c : ClassConstraints) : Prop := ∀ p pc, c.get? p = some pc → pc.Uncrossed

def Extends (d c : ClassConstraints) : Prop :=
  ∀ p pc, c.get? p = some pc → ∃ pc', d.get? p = some pc' ∧ pc'.Extends pc

variable {child parent : ClassConstraints} {iri origin : Iri}

theorem Labelled.relabel (h : parent.Labelled origin) (iri : Iri) :
    (parent.relabel iri).Labelled iri := by
  refine ⟨rfl, fun p pc hpc ↦ ?_⟩
  obtain ⟨pc, hget, rfl⟩ := Option.map_eq_some_iff.1 (get?_relabel parent iri p ▸ hpc)
  exact ⟨rfl, (h.2 p pc hget).2⟩

theorem Labelled.mergeParent (hchild : child.Labelled iri) (hparent : parent.Labelled origin) :
    (child.mergeParent parent).child.Labelled iri := by
  refine ⟨(class_mergeParent child parent).trans hchild.1, fun p pc hpc ↦ ?_⟩
  rw [get?_mergeParent] at hpc
  cases hget : parent.get? p with
  | none => exact hchild.2 p pc (by simpa [hget] using hpc)
  | some inherited =>
    obtain rfl : handedDown child.class (child.get? p) inherited = pc := by simpa [hget] using hpc
    rw [hchild.1]
    exact handedDown_label (hchild.2 p) (hparent.2 p inherited hget).2

theorem Uncrossed.relabel (h : parent.Uncrossed) (iri : Iri) : (parent.relabel iri).Uncrossed := by
  intro p pc hpc
  obtain ⟨pc, hget, rfl⟩ := Option.map_eq_some_iff.1 (get?_relabel parent iri p ▸ hpc)
  exact h p pc hget

theorem Uncrossed.mergeParent (hchild : child.Uncrossed) (hparent : parent.Uncrossed) :
    (child.mergeParent parent).child.Uncrossed := by
  intro p pc hpc
  rw [get?_mergeParent] at hpc
  cases hget : parent.get? p with
  | none => exact hchild p pc (by simpa [hget] using hpc)
  | some inherited =>
    obtain rfl : handedDown child.class (child.get? p) inherited = pc := by simpa [hget] using hpc
    exact handedDown_uncrossed (hchild p) (hparent p inherited hget) child.class

theorem Extends.refl (c : ClassConstraints) : c.Extends c :=
  fun _ pc hpc ↦ ⟨pc, hpc, .refl pc⟩

theorem mergeParent_extends (child parent : ClassConstraints) :
    (child.mergeParent parent).child.Extends child := by
  intro p own hown
  rw [get?_mergeParent, hown]
  cases parent.get? p with
  | none => exact ⟨own, rfl, .refl own⟩
  | some inherited => exact ⟨_, rfl, handedDown_extends own child.class inherited⟩

end ClassConstraints

namespace Definitions

variable {definitions later : Definitions}

def Labelled (definitions : Definitions) : Prop :=
  ∀ iri c, definitions.restricted? iri = some c → c.Labelled iri

def Uncrossed (definitions : Definitions) : Prop :=
  ∀ iri c, definitions.restricted? iri = some c → c.Uncrossed

/-- Classes with constraints still have them, with all fields that were set. -/
def Extends (later definitions : Definitions) : Prop :=
  ∀ iri c, definitions.restricted? iri = some c →
    ∃ c', later.restricted? iri = some c' ∧ c'.Extends c

theorem Extends.refl (definitions : Definitions) : definitions.Extends definitions :=
  fun _ c hc ↦ ⟨c, hc, .refl c⟩

end Definitions

namespace Inheritance

variable {children : OrderedMap Iri (List Iri)} {definitions : Definitions} {n : Nat}

namespace Pass

theorem inherit_forall {P : Iri → ClassConstraints → Prop}
    (copy : ∀ a c parent, P a parent → P c (parent.relabel c))
    (merge : ∀ a c parent own, P a parent → P c own → P c (own.mergeParent parent).child)
    {pass : Pass} (h : ∀ iri c, pass.definitions.restricted? iri = some c → P iri c)
    (edge : Iri × Iri) (iri : Iri) (c : ClassConstraints)
    (hc : (pass.inherit edge).definitions.restricted? iri = some c) : P iri c := by
  rcases inherit_cases pass edge with ⟨-, he⟩ | ⟨parent, own, hparent, hown, he⟩ |
    ⟨parent, hparent, -, he⟩
  · exact h iri c (he ▸ hc)
  · rw [he, Definitions.restricted?_insert] at hc
    split at hc
    next hiri =>
      cases hc
      exact hiri ▸ merge _ _ parent own (h _ _ hparent) (h _ _ hown)
    next => exact h iri c hc
  · rw [he, Definitions.restricted?_insert] at hc
    split at hc
    next hiri =>
      cases hc
      exact hiri ▸ copy _ _ parent (h _ _ hparent)
    next => exact h iri c hc

theorem inherit_labelled {pass : Pass} (h : pass.definitions.Labelled) (edge : Iri × Iri) :
    (pass.inherit edge).definitions.Labelled :=
  inherit_forall (fun _ c _ hp ↦ hp.relabel c) (fun _ _ _ _ hp hc ↦ hc.mergeParent hp) h edge

theorem inherit_uncrossed {pass : Pass} (h : pass.definitions.Uncrossed) (edge : Iri × Iri) :
    (pass.inherit edge).definitions.Uncrossed :=
  inherit_forall (P := fun _ c ↦ c.Uncrossed) (fun _ c _ hp ↦ hp.relabel c)
    (fun _ _ _ _ hp hc ↦ hc.mergeParent hp) h edge

theorem inherit_extends (pass : Pass) (edge : Iri × Iri) :
    (pass.inherit edge).definitions.Extends pass.definitions := by
  intro iri c hc
  rcases inherit_cases pass edge with ⟨-, he⟩ | ⟨parent, own, hparent, hown, he⟩ |
    ⟨parent, hparent, hnone, he⟩
  · rw [he]
    exact ⟨c, hc, .refl c⟩
  · rw [he, Definitions.restricted?_insert]
    split
    next hiri =>
      obtain rfl := Option.some.inj (hown.symm.trans (hiri ▸ hc))
      exact ⟨_, rfl, ClassConstraints.mergeParent_extends own parent⟩
    next => exact ⟨c, hc, .refl c⟩
  · rw [he, Definitions.restricted?_insert]
    split
    next hiri =>
      rw [hiri, hnone] at hc
      cases hc
    next => exact ⟨c, hc, .refl c⟩

end Pass

def afterPasses (children : OrderedMap Iri (List Iri)) (definitions : Definitions) (n : Nat) :
    Inheritance :=
  iterate children n { definitions, diagnostics := [], passes := 0, quiet := false }

theorem mem_run_diagnostics {r : Diagnostic} :
    r ∈ (run definitions children n).diagnostics ↔
      r ∈ (afterPasses children definitions n).diagnostics ∨
        (run definitions children n).quiet = false ∧
          r = unfinishedReport (run definitions children n).passes := by
  unfold run Diagnostic.distinct
  dsimp only
  rw [List.mem_eraseDups]
  split
  next h => simp [h, afterPasses]
  next h => simp [h, afterPasses]

theorem mem_run_diagnostics_of_quiet (hquiet : (run definitions children n).quiet = true)
    {r : Diagnostic} : r ∈ (run definitions children n).diagnostics ↔
      r ∈ (afterPasses children definitions n).diagnostics := by
  rw [mem_run_diagnostics]
  exact or_iff_left fun h ↦ Bool.false_ne_true (h.1.symm.trans hquiet)

variable (children definitions n) in
/-- What holds at the start and is kept by every step along an edge holds of a run's result. -/
theorem run_induction {motive : Definitions → List Diagnostic → Prop}
    (start : motive definitions [])
    (step : ∀ pass edge, edge ∈ edgesOf children → motive pass.definitions pass.diagnostics →
      motive (Pass.inherit pass edge).definitions (Pass.inherit pass edge).diagnostics) :
    motive (run definitions children n).definitions
      (afterPasses children definitions n).diagnostics :=
  iterate_induction step n _ start

/-- A run that ends quietly leaves every edge settled, and what the edge reports then is among the
reports of the run. -/
theorem run_of_quiet (h : (run definitions children n).quiet = true) :
    ∀ edge ∈ edgesOf children, Pass.Settled (run definitions children n).definitions edge ∧
      ∀ r ∈ Pass.reports (run definitions children n).definitions edge,
        r ∈ (run definitions children n).diagnostics := by
  have hquiet : (afterPasses children definitions n).quiet = true := h
  obtain ⟨hzero, hreports⟩ := iterate_of_quiet n
    { definitions, diagnostics := [], passes := 0, quiet := false } rfl hquiet
  obtain ⟨-, hfound, hsettled⟩ := Pass.run_of_changes_eq_zero hzero
  refine fun edge hedge ↦ ⟨hsettled edge hedge, fun r hr ↦ ?_⟩
  refine (mem_run_diagnostics_of_quiet h).2 (hreports r ?_)
  rw [hfound]
  exact List.mem_flatMap.2 ⟨edge, hedge, hr⟩

theorem run_labelled (h : definitions.Labelled) :
    (run definitions children n).definitions.Labelled :=
  run_induction children definitions n (motive := fun definitions _ ↦ definitions.Labelled) h
    fun _ edge _ h ↦ Pass.inherit_labelled h edge

theorem run_uncrossed (h : definitions.Uncrossed) :
    (run definitions children n).definitions.Uncrossed :=
  run_induction children definitions n (motive := fun definitions _ ↦ definitions.Uncrossed) h
    fun _ edge _ h ↦ Pass.inherit_uncrossed h edge

end Inheritance

end OntologyGuard
