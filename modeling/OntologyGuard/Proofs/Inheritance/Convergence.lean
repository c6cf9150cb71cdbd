import Mathlib.Logic.Function.Iterate
import OntologyGuard.Proofs.Hierarchy.Path
import OntologyGuard.Proofs.Inheritance.Conflict
import OntologyGuard.Proofs.Inheritance.Settling

/-!
When inheritance comes to rest. Each pass settles one more level of the hierarchy, in whatever order
it takes the edges, so a pass is quiet once the levels are through. A run on what a quiet run returns
changes nothing more.
-/

namespace OntologyGuard.Inheritance

open Hierarchy

variable {edges : List (Iri × Iri)} {children : OrderedMap Iri (List Iri)}
  {definitions start : Definitions} {level height n : Nat}

namespace Pass

def SettledWithin (edges : List (Iri × Iri)) (level : Nat) (definitions : Definitions) : Prop :=
  ∀ edge ∈ edges, Within edges level edge.2 → Settled definitions edge

/-- What a pass has reached when some edges are done: the classes of a level and those above are as
they were at its start, and the edges down to the next level are settled. -/
structure Advances (edges : List (Iri × Iri)) (level : Nat) (start : Definitions)
    (done : List (Iri × Iri)) (pass : Pass) : Prop where
  uncrossed : pass.definitions.Uncrossed
  kept : ∀ iri, Within edges level iri → pass.definitions.get? iri = start.get? iri
  settled : ∀ edge ∈ done, Within edges (level + 1) edge.2 → Settled pass.definitions edge

theorem Advances.inherit {done : List (Iri × Iri)} {pass : Pass}
    (h : Advances edges level start done pass) (hstart : SettledWithin edges level start)
    (hdone : ∀ edge ∈ done, edge ∈ edges) {edge : Iri × Iri} (hedge : edge ∈ edges) :
    Advances edges level start (done ++ [edge]) (pass.inherit edge) := by
  by_cases hknown : Within edges level edge.2
  · -- the edge was settled when the pass began, and neither end has changed since
    have hparent : Within edges level edge.1 := (hknown.mono (Nat.le_succ _)).parent hedge
    have hsettled : Settled pass.definitions edge :=
      (hstart edge hedge hknown).congr (h.kept _ hparent) (h.kept _ hknown)
    have hsame := hsettled.inherit_eq.1
    refine ⟨?_, ?_, ?_⟩ <;> rw [hsame]
    · exact h.uncrossed
    · exact h.kept
    · intro other hother hwithin
      rcases List.mem_append.1 hother with hother | hother
      · exact h.settled other hother hwithin
      · rwa [List.mem_singleton.1 hother]
  · have hkept (iri : Iri) (hiri : Within edges level iri) :
        (pass.inherit edge).definitions.get? iri = pass.definitions.get? iri := by
      apply get?_inherit_of_ne
      rintro rfl
      exact hknown hiri
    refine ⟨inherit_uncrossed h.uncrossed edge, ?_, ?_⟩
    · intro iri hiri
      exact (hkept iri hiri).trans (h.kept iri hiri)
    · intro other hother hwithin
      rcases List.mem_append.1 hother with hother | hother
      · have hparent := hkept other.1 (hwithin.parent (hdone other hother))
        exact (h.settled other hother hwithin).inherit h.uncrossed hparent
      · rw [List.mem_singleton] at hother
        subst hother
        apply settled_inherit
        intro hself
        exact hknown (hself ▸ hwithin.parent hedge)

theorem Advances.foldl (hstart : SettledWithin edges level start) (todo : List (Iri × Iri))
    {done : List (Iri × Iri)} {pass : Pass} (h : Advances edges level start done pass)
    (hmem : ∀ edge ∈ done ++ todo, edge ∈ edges) :
    Advances edges level start (done ++ todo) (todo.foldl Pass.inherit pass) := by
  induction todo generalizing done pass with
  | nil => rwa [List.append_nil]
  | cons edge rest ih =>
    have hdone (e : Iri × Iri) (he : e ∈ done) : e ∈ edges :=
      hmem e (List.mem_append_left _ he)
    have hedge : edge ∈ edges := hmem edge (List.mem_append_right _ List.mem_cons_self)
    rw [List.append_cons] at hmem ⊢
    exact ih (h.inherit hstart hdone hedge) hmem

theorem advances_run (huncrossed : definitions.Uncrossed)
    (h : SettledWithin (edgesOf children) level definitions) :
    Advances (edgesOf children) level definitions (edgesOf children) (run children definitions) := by
  have hbegin : Advances (edgesOf children) level definitions [] { definitions } :=
    ⟨huncrossed, fun _ _ ↦ rfl, fun _ he ↦ absurd he List.not_mem_nil⟩
  rw [run_eq_foldl]
  exact hbegin.foldl h (edgesOf children) fun _ he ↦ he

theorem changes_foldl_of_settled {pass : Pass}
    (h : ∀ edge ∈ edges, Settled pass.definitions edge) :
    (edges.foldl inherit pass).changes = pass.changes := by
  induction edges generalizing pass with
  | nil => rfl
  | cons edge rest ih =>
    obtain ⟨hedge, hrest⟩ := List.forall_mem_cons.1 h
    obtain ⟨hsame, hchanges⟩ := hedge.inherit_eq
    rw [List.foldl_cons, ih (hsame ▸ hrest), hchanges]

theorem changes_run_of_settled (h : ∀ edge ∈ edgesOf children, Settled definitions edge) :
    (run children definitions).changes = 0 := by
  rw [run_eq_foldl]
  exact changes_foldl_of_settled h

end Pass

def afterPass (children : OrderedMap Iri (List Iri)) (state : Inheritance) : Inheritance where
  definitions := (Pass.run children state.definitions).definitions
  diagnostics := state.diagnostics ++ (Pass.run children state.definitions).diagnostics
  passes := state.passes + 1
  quiet := (Pass.run children state.definitions).changes = 0

theorem iterate_succ (children : OrderedMap Iri (List Iri)) (n : Nat) (state : Inheritance) :
    iterate children (n + 1) state =
      if (afterPass children state).quiet then afterPass children state
      else iterate children n (afterPass children state) := rfl

/-- What is left of definitions after so many passes. -/
def definitionsAfter (children : OrderedMap Iri (List Iri)) (definitions : Definitions) (n : Nat) :
    Definitions :=
  (fun current ↦ (Pass.run children current).definitions)^[n] definitions

/-- The last pass of a run went over what the passes before it had left, and changed nothing. -/
structure EndsQuietly (children : OrderedMap Iri (List Iri)) (definitions : Definitions)
    (result : Inheritance) : Prop where
  last : ∃ before, result.passes = before + 1 ∧
    result.definitions = definitionsAfter children definitions before
  changes : (Pass.run children result.definitions).changes = 0

theorem iterate_endsQuietly (n : Nat) (state : Inheritance) (hstate : state.quiet = false)
    (h : (iterate children n state).quiet = true) :
    (∃ before, (iterate children n state).passes = state.passes + (before + 1) ∧
      (iterate children n state).definitions = definitionsAfter children state.definitions before) ∧
    (Pass.run children (iterate children n state).definitions).changes = 0 := by
  refine ⟨?_, (iterate_of_quiet n state hstate h).1⟩
  induction n generalizing state with
  | zero => exact absurd (hstate.symm.trans h) Bool.false_ne_true
  | succ n ih =>
    rw [iterate_succ] at h ⊢
    by_cases hquiet : (afterPass children state).quiet = true
    · rw [if_pos hquiet]
      exact ⟨0, rfl, (Pass.run_of_changes_eq_zero (of_decide_eq_true hquiet)).1⟩
    · rw [if_neg hquiet] at h ⊢
      obtain ⟨before, hpasses, hdefinitions⟩ := ih (afterPass children state) (Bool.eq_false_iff.2 hquiet) h
      have hmore : (afterPass children state).passes = state.passes + 1 := rfl
      exact ⟨before + 1, by omega, hdefinitions⟩

/-- What the flag of a run stands for. -/
theorem endsQuietly_of_quiet (h : (run definitions children n).quiet = true) :
    EndsQuietly children definitions (run definitions children n) := by
  obtain ⟨⟨before, hpasses, hdefinitions⟩, hchanges⟩ := iterate_endsQuietly n
    { definitions, diagnostics := [], passes := 0, quiet := false } rfl h
  exact ⟨⟨before, by rw [← Nat.zero_add (before + 1)]; exact hpasses, hdefinitions⟩, hchanges⟩

theorem iterate_quiet (hheight : ∀ n a b, Path (edgesOf children) n a b → n ≤ height)
    (n level : Nat) (state : Inheritance) (huncrossed : state.definitions.Uncrossed)
    (hlevel : level ≤ height)
    (h : Pass.SettledWithin (edgesOf children) level state.definitions)
    (hn : height + 1 ≤ level + n) :
    (iterate children n state).quiet = true ∧
      (iterate children n state).passes + level ≤ state.passes + (height + 1) := by
  induction n generalizing level state with
  | zero => omega
  | succ n ih =>
    have hnext := Pass.advances_run huncrossed h
    have hpasses : (afterPass children state).passes = state.passes + 1 := rfl
    rw [iterate_succ]
    by_cases hquiet : (afterPass children state).quiet = true
    · rw [if_pos hquiet]
      exact ⟨hquiet, by omega⟩
    · -- at the last level all edges are settled, so that the pass would have been quiet
      have hbelow : level ≠ height := by
        rintro rfl
        apply hquiet
        refine decide_eq_true (Pass.changes_run_of_settled fun edge hedge ↦ ?_)
        exact h edge hedge fun n a path ↦ hheight n a _ path
      obtain ⟨hend, hle⟩ := ih (level + 1) (afterPass children state) hnext.uncrossed (by omega)
        hnext.settled (by omega)
      rw [if_neg hquiet]
      exact ⟨hend, by omega⟩

theorem run_quiet_of_height (hheight : ∀ n a b, Path (edgesOf children) n a b → n ≤ height)
    (huncrossed : definitions.Uncrossed) (hn : height + 1 ≤ n) :
    (run definitions children n).quiet = true ∧
      (run definitions children n).passes ≤ height + 1 := by
  have hzero : Pass.SettledWithin (edgesOf children) 0 definitions :=
    fun edge hedge hwithin ↦ absurd hedge hwithin.not_mem
  obtain ⟨hquiet, hle⟩ := iterate_quiet hheight n 0
    { definitions, diagnostics := [], passes := 0, quiet := false } huncrossed (Nat.zero_le _) hzero
    (by omega)
  refine ⟨hquiet, ?_⟩
  rwa [Nat.add_zero, Nat.zero_add] at hle

theorem kind_of_mem_afterPasses {r : Diagnostic}
    (hr : r ∈ (afterPasses children definitions n).diagnostics) : r.kind = .ontologyError := by
  have h := run_induction children definitions n
    (motive := fun _ found ↦ ∀ r ∈ found, r.kind = .ontologyError)
    (fun _ hr ↦ absurd hr List.not_mem_nil) ?_
  · exact h r hr
  · intro pass edge _ hfound r hr
    rw [Pass.diagnostics_inherit, List.mem_append] at hr
    rcases hr with hr | hr
    · exact hfound r hr
    · obtain ⟨parent, child, -, -, hr⟩ := Pass.mem_reports.1 hr
      obtain ⟨p, own, inherited, -, -, hr⟩ := ClassConstraints.mem_diagnostics_mergeParent.1 hr
      exact (PropertyConstraints.label_of_mem_mergeParent hr).1

theorem kind_of_quiet (h : (run definitions children n).quiet = true) {r : Diagnostic}
    (hr : r ∈ (run definitions children n).diagnostics) : r.kind = .ontologyError :=
  kind_of_mem_afterPasses ((mem_run_diagnostics_of_quiet h).1 hr)

theorem run_of_changes_eq_zero (h : (Pass.run children definitions).changes = 0) (n : Nat) :
    run definitions children (n + 1) =
      { definitions
        diagnostics := Diagnostic.distinct (Pass.run children definitions).diagnostics
        passes := 1
        quiet := true } := by
  have hstay := (Pass.run_of_changes_eq_zero h).1
  simp [run, iterate, h, hstay]

/-- One more run on the result of a quiet run takes one pass, returns the same definitions and
reports nothing that was not reported before. -/
theorem run_idempotent (definitions : Definitions) (children : OrderedMap Iri (List Iri))
    (maxPasses again : Nat) (h : (run definitions children maxPasses).quiet = true)
    (hagain : 1 ≤ again) :
    ∃ found, run (run definitions children maxPasses).definitions children again =
        { definitions := (run definitions children maxPasses).definitions
          diagnostics := found
          passes := 1
          quiet := true } ∧
      ∀ r ∈ found, r ∈ (run definitions children maxPasses).diagnostics := by
  obtain ⟨n, rfl⟩ := Nat.exists_eq_add_of_le' hagain
  have hlast : (afterPasses children definitions maxPasses).quiet = true := h
  obtain ⟨hzero, hreports⟩ := iterate_of_quiet maxPasses _ rfl hlast
  refine ⟨_, run_of_changes_eq_zero hzero n, ?_⟩
  intro r hr
  have hmem : r ∈ (afterPasses children definitions maxPasses).diagnostics :=
    hreports r (List.mem_eraseDups.1 hr)
  exact mem_run_diagnostics.2 (.inl hmem)

/-- Two classes that are each other's parent, the one with a lower bound and the other with an upper
bound below it. -/
def loopClasses : Definitions :=
  (Definitions.ofClasses
    [boundedClass "A" Owl.minQualifiedCardinality "2", boundedClass "B" Owl.maxCardinality "1"]).1

def loopEdges : OrderedMap Iri (List Iri) := .ofList [("A", ["B"]), ("B", ["A", "C"])]

theorem run_idempotent_loop :
    (run loopClasses loopEdges 5).quiet = true ∧ (run loopClasses loopEdges 5).diagnostics ≠ [] ∧
      ∃ found, run (run loopClasses loopEdges 5).definitions loopEdges 1 =
          { definitions := (run loopClasses loopEdges 5).definitions
            diagnostics := found
            passes := 1
            quiet := true } ∧
        ∀ r ∈ found, r ∈ (run loopClasses loopEdges 5).diagnostics := by
  have hquiet : (run loopClasses loopEdges 5).quiet = true := by decide +kernel
  exact ⟨hquiet, by decide +kernel, run_idempotent loopClasses loopEdges 5 1 hquiet (by decide)⟩

end OntologyGuard.Inheritance
