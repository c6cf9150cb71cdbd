import Mathlib.Algebra.Order.BigOperators.Group.List
import Mathlib.Algebra.Order.Ring.Nat
import OntologyGuard.Proofs.Inheritance.Convergence

/-!
Inheritance comes to rest on any graph. What a step counts as a change fills a field, adds a property
or gives a class its first constraints, and none of this is ever undone. What is left to be filled
bounds the number of passes.
-/

namespace OntologyGuard

section Sum

variable {α : Type} {f g : α → Nat} {a : α} {n : Nat} {l : List α}

theorem sum_map_le (h : ∀ a, f a ≤ n) : (l.map f).sum ≤ l.length * n := by
  have hall : ∀ k ∈ l.map f, k ≤ n := by
    intro k hk
    obtain ⟨a, -, rfl⟩ := List.mem_map.1 hk
    exact h a
  have hsum := List.sum_le_card_nsmul (l.map f) n hall
  rw [List.length_map] at hsum
  exact hsum

theorem sum_map_add_le (h : ∀ b ∈ l, f b ≤ g b) (ha : a ∈ l) (hn : f a + n ≤ g a) :
    (l.map f).sum + n ≤ (l.map g).sum := by
  induction l with
  | nil => cases ha
  | cons b rest ih =>
    obtain ⟨hb, hrest⟩ := List.forall_mem_cons.1 h
    rw [List.map_cons, List.map_cons, List.sum_cons, List.sum_cons]
    rcases List.mem_cons.1 ha with rfl | ha
    · have := List.sum_le_sum hrest
      omega
    · have := ih hrest ha
      omega

end Sum

namespace PropertyConstraints

def gap {α : Type} (field : Option α) : Nat := if field.isNone then 1 else 0

theorem gap_le {α : Type} {own later : Option α} (h : ∀ a, own = some a → later = some a) :
    gap later ≤ gap own := by
  cases own with
  | none => cases later <;> simp [gap]
  | some a => simp [gap, h a rfl]

theorem eq_of_gap_le {α : Type} {own later : Option α} (h : ∀ a, own = some a → later = some a)
    (hle : gap own ≤ gap later) : later = own := by
  cases own with
  | none => cases later <;> simp_all [gap]
  | some a => exact h a rfl

def gaps (c : PropertyConstraints) : Nat := gap c.min + gap c.max + gap c.range

theorem gaps_le (c : PropertyConstraints) : c.gaps ≤ 3 := by
  have hgap {α : Type} (field : Option α) : gap field ≤ 1 := by cases field <;> simp [gap]
  have hmin := hgap c.min
  have hmax := hgap c.max
  have hrange := hgap c.range
  unfold gaps
  omega

theorem gaps_lt_of_extends {c d : PropertyConstraints} (h : d.Extends c) (hclass : d.class = c.class)
    (hproperty : d.property = c.property) (hne : d.agrees c = false) : d.gaps < c.gaps := by
  have hmin := gap_le h.min
  have hmax := gap_le h.max
  have hrange := gap_le h.range
  by_contra hnot
  unfold gaps at hnot
  refine Bool.eq_false_iff.1 hne (agrees_iff.2 ⟨hclass, hproperty, ?_, ?_, ?_⟩)
  · exact eq_of_gap_le h.min (by omega)
  · exact eq_of_gap_le h.max (by omega)
  · exact eq_of_gap_le h.range (by omega)

end PropertyConstraints

namespace ClassConstraints

variable {properties : List Iri} {c child parent : ClassConstraints}

/-- How often the constraints on a property may still change: once to be there, and once for each
unset field. -/
def roomOf (own : Option PropertyConstraints) : Nat := (own.map (·.gaps)).getD 4

theorem roomOf_le (own : Option PropertyConstraints) : roomOf own ≤ 4 := by
  cases own with
  | none => exact Nat.le_refl 4
  | some c => exact Nat.le_succ_of_le c.gaps_le

theorem roomOf_handedDown {own : Option PropertyConstraints} {inherited : PropertyConstraints}
    (h : ¬settled own inherited = true) («class» : Iri) :
    roomOf (some (handedDown «class» own inherited)) + 1 ≤ roomOf own := by
  cases own with
  | none => exact Nat.succ_le_succ (PropertyConstraints.gaps_le _)
  | some c =>
    have hne : (c.mergeParent inherited).1.agrees c = false := by simpa [settled] using h
    rw [handedDown, if_neg (Bool.eq_false_iff.1 hne)]
    exact PropertyConstraints.gaps_lt_of_extends
      (PropertyConstraints.mergeParent_extends c inherited)
      (PropertyConstraints.mergeParent_class c inherited)
      (PropertyConstraints.mergeParent_property c inherited) hne

def room (properties : List Iri) (c : ClassConstraints) : Nat :=
  (properties.map fun p ↦ roomOf (c.get? p)).sum

theorem room_le (properties : List Iri) (c : ClassConstraints) :
    c.room properties ≤ 4 * properties.length := by
  rw [Nat.mul_comm]
  exact sum_map_le fun p ↦ roomOf_le (c.get? p)

theorem room_mergeProperty {entry : Iri × PropertyConstraints} (h : entry.1 ∈ properties)
    (state : Merge) :
    (mergeProperty state entry).child.room properties + (mergeProperty state entry).changes ≤
      state.child.room properties + state.changes := by
  rw [mergeProperty_eq]
  split
  next => exact Nat.le_refl _
  next hsettled =>
    have hdrop := roomOf_handedDown hsettled state.child.class
    have hsum : (state.child.set entry.1 (handedDown state.child.class
        (state.child.get? entry.1) entry.2)).room properties + 1 ≤ state.child.room properties := by
      refine sum_map_add_le (fun p _ ↦ ?_) h ?_
      · rw [get?_set]
        split
        next hp =>
          subst hp
          exact Nat.le_of_succ_le hdrop
        next => exact Nat.le_refl _
      · rwa [get?_set, if_pos rfl]
    dsimp only
    omega

theorem room_foldl_mergeProperty {entries : List (Iri × PropertyConstraints)}
    (h : ∀ entry ∈ entries, entry.1 ∈ properties) (state : Merge) :
    (entries.foldl mergeProperty state).child.room properties +
        (entries.foldl mergeProperty state).changes ≤
      state.child.room properties + state.changes := by
  induction entries generalizing state with
  | nil => exact Nat.le_refl _
  | cons entry rest ih =>
    obtain ⟨hentry, hrest⟩ := List.forall_mem_cons.1 h
    exact Nat.le_trans (ih hrest _) (room_mergeProperty hentry state)

theorem room_mergeParent (child : ClassConstraints)
    (h : ∀ p inherited, parent.get? p = some inherited → p ∈ properties) :
    (child.mergeParent parent).child.room properties + (child.mergeParent parent).changes ≤
      child.room properties :=
  room_foldl_mergeProperty
    (fun entry hentry ↦ h entry.1 entry.2 (OrderedMap.get?_eq_some_iff.2 hentry)) { child }

def Only (properties : List Iri) (c : ClassConstraints) : Prop :=
  ∀ p pc, c.get? p = some pc → p ∈ properties

theorem Only.relabel (h : parent.Only properties) («class» : Iri) :
    (parent.relabel «class»).Only properties := by
  intro p pc hpc
  obtain ⟨pc, hget, -⟩ := Option.map_eq_some_iff.1 (get?_relabel parent «class» p ▸ hpc)
  exact h p pc hget

theorem Only.mergeParent (hchild : child.Only properties) (hparent : parent.Only properties) :
    (child.mergeParent parent).child.Only properties := by
  intro p pc hpc
  rw [get?_mergeParent] at hpc
  cases hget : parent.get? p with
  | none => exact hchild p pc (by simpa [hget] using hpc)
  | some inherited => exact hparent p inherited hget

end ClassConstraints

namespace Definitions

variable {classes properties : List Iri} {definitions : Definitions} {iri : Iri}

def Only (properties : List Iri) (definitions : Definitions) : Prop :=
  ∀ iri c, definitions.restricted? iri = some c → c.Only properties

/-- How often a definition may still change. -/
def roomOf (properties : List Iri) : Option ClassDefinition → Nat
  | some (.restricted c) => c.room properties
  | some (.datatype _) => 0
  | some .unconstrained | none => 4 * properties.length + 1

theorem roomOf_le (definition : Option ClassDefinition) :
    roomOf properties definition ≤ 4 * properties.length + 1 := by
  unfold roomOf
  split
  next c => exact Nat.le_succ_of_le (c.room_le properties)
  next => exact Nat.zero_le _
  all_goals exact Nat.le_refl _

theorem roomOf_of_restricted?_eq_none (properties : List Iri)
    (h : definitions.restricted? iri = none)
    (hdatatype : ∀ d, definitions.get? iri ≠ some (.datatype d)) :
    roomOf properties (definitions.get? iri) = 4 * properties.length + 1 := by
  cases hget : definitions.get? iri with
  | none => rfl
  | some definition =>
    cases definition with
    | unconstrained => rfl
    | datatype d => exact absurd hget (hdatatype d)
    | restricted c => cases h.symm.trans (restricted?_eq_some_iff.2 hget)

def room (classes properties : List Iri) (definitions : Definitions) : Nat :=
  (classes.map fun iri ↦ roomOf properties (definitions.get? iri)).sum

theorem room_le (classes properties : List Iri) (definitions : Definitions) :
    definitions.room classes properties ≤ classes.length * (4 * properties.length + 1) :=
  sum_map_le fun iri ↦ roomOf_le (definitions.get? iri)

theorem room_insert (definitions : Definitions) (definition : ClassDefinition) {n : Nat}
    (h : iri ∈ classes)
    (hn : roomOf properties (some definition) + n ≤ roomOf properties (definitions.get? iri)) :
    room classes properties (definitions.insert iri definition) + n ≤
      definitions.room classes properties := by
  refine sum_map_add_le (fun other _ ↦ ?_) h ?_
  · rw [OrderedMap.get?_insert]
    split
    next hother =>
      subst hother
      omega
    next => exact Nat.le_refl _
  · rwa [OrderedMap.get?_insert, if_pos rfl]

end Definitions

namespace Inheritance

variable {classes properties : List Iri} {children : OrderedMap Iri (List Iri)}
  {definitions : Definitions}

namespace Pass

theorem only_inherit {pass : Pass} (h : pass.definitions.Only properties) (edge : Iri × Iri) :
    (pass.inherit edge).definitions.Only properties :=
  inherit_forall (P := fun _ c ↦ c.Only properties) (fun _ c _ hp ↦ hp.relabel c)
    (fun _ _ _ _ hp hc ↦ hc.mergeParent hp) h edge

theorem room_inherit {pass : Pass} {edge : Iri × Iri} (h : pass.definitions.Only properties)
    (hedge : edge.2 ∈ classes) :
    (pass.inherit edge).definitions.room classes properties + (pass.inherit edge).changes ≤
      pass.definitions.room classes properties + pass.changes := by
  rcases inherit_cases pass edge with ⟨-, he⟩ | ⟨parent, own, hparent, hown, he⟩ |
    ⟨parent, hparent, hnone, he⟩
  · rw [he]
  · have hroom : Definitions.roomOf properties (pass.definitions.get? edge.2) =
        own.room properties := by
      rw [Definitions.restricted?_eq_some_iff.1 hown, Definitions.roomOf]
    have hmerge := ClassConstraints.room_mergeParent own (h _ parent hparent)
    have hinsert := Definitions.room_insert pass.definitions
      (.restricted (own.mergeParent parent).child) hedge (hroom ▸ hmerge)
    rw [he]
    dsimp only
    omega
  · have hnot (d : DatatypeConstraints) : pass.definitions.get? edge.2 ≠ some (.datatype d) := by
      intro hd
      have hsame := congrArg Pass.changes (he.symm.trans (inherit_of_datatype hd))
      exact Nat.succ_ne_self _ hsame
    have hroom := Definitions.roomOf_of_restricted?_eq_none properties hnone hnot
    have hcopy := Nat.add_le_add_right ((parent.relabel edge.2).room_le properties) 1
    have hinsert := Definitions.room_insert pass.definitions (.restricted (parent.relabel edge.2))
      hedge (hroom ▸ hcopy)
    rw [he]
    dsimp only
    omega

theorem mem_values_of_mem_edgesOf {edge : Iri × Iri} (h : edge ∈ edgesOf children) :
    edge.2 ∈ children.values.flatten := by
  obtain ⟨entry, hentry, hedge⟩ := List.mem_flatMap.1 h
  obtain ⟨child, hchild, rfl⟩ := List.mem_map.1 hedge
  exact List.mem_flatten.2 ⟨entry.2, List.mem_map_of_mem hentry, hchild⟩

/-- A pass leaves less room by the number of its changes. -/
theorem room_run (h : definitions.Only properties)
    (hchildren : ∀ iri ∈ children.values.flatten, iri ∈ classes) :
    (run children definitions).definitions.Only properties ∧
      (run children definitions).definitions.room classes properties +
          (run children definitions).changes ≤ definitions.room classes properties := by
  rw [run_eq_foldl]
  refine foldl_induction (motive := fun pass ↦ pass.definitions.Only properties ∧
    pass.definitions.room classes properties + pass.changes ≤
      definitions.room classes properties) { definitions } ⟨h, Nat.le_refl _⟩ ?_
  intro pass edge hedge hpass
  have hstep := room_inherit hpass.1 (hchildren edge.2 (mem_values_of_mem_edgesOf hedge))
  exact ⟨only_inherit hpass.1 edge, Nat.le_trans hstep hpass.2⟩

end Pass

theorem iterate_quiet_of_room (hchildren : ∀ iri ∈ children.values.flatten, iri ∈ classes)
    (n : Nat) (state : Inheritance) (h : state.definitions.Only properties)
    (hn : state.definitions.room classes properties < n) :
    (iterate children n state).quiet = true ∧ (iterate children n state).passes ≤
      state.passes + state.definitions.room classes properties + 1 := by
  induction n generalizing state with
  | zero => omega
  | succ n ih =>
    obtain ⟨honly, hroom⟩ := Pass.room_run h hchildren
    have hpasses : (afterPass children state).passes = state.passes + 1 := rfl
    rw [iterate_succ]
    by_cases hquiet : (afterPass children state).quiet = true
    · rw [if_pos hquiet]
      exact ⟨hquiet, by omega⟩
    · have hchanges : (Pass.run children state.definitions).changes ≠ 0 := fun hzero ↦
        hquiet (decide_eq_true hzero)
      have hless : (afterPass children state).definitions.room classes properties <
          state.definitions.room classes properties := by
        show (Pass.run children state.definitions).definitions.room classes properties < _
        omega
      obtain ⟨hend, hle⟩ := ih (afterPass children state) honly (by omega)
      rw [if_neg hquiet]
      exact ⟨hend, by omega⟩

def classesOf (definitions : Definitions) (children : OrderedMap Iri (List Iri)) :
    DistinctList Iri :=
  .ofList (definitions.keys ++ children.values.flatten)

def propertiesOf (definitions : Definitions) : DistinctList Iri :=
  .ofList (definitions.restrictions.flatMap fun entry ↦ entry.2.properties.keys)

theorem only_propertiesOf (definitions : Definitions) :
    definitions.Only (propertiesOf definitions).toList := by
  intro iri c hc p pc hpc
  refine DistinctList.mem_ofList.2 (List.mem_flatMap.2 ⟨(iri, c), ?_, ?_⟩)
  · exact Definitions.mem_restrictions.2 hc
  · exact OrderedMap.mem_keys_iff.2 ⟨pc, hpc⟩

/-- Inheritance ends with a quiet pass on any graph, whatever cycles it has and whatever bounds cross,
when as many passes are allowed as there are fields to fill and classes to constrain. -/
theorem run_quiet_of_many_passes (definitions : Definitions) (children : OrderedMap Iri (List Iri))
    (maxPasses : Nat) (h : (classesOf definitions children).size *
      (4 * (propertiesOf definitions).size + 1) + 1 ≤ maxPasses) :
    EndsQuietly children definitions (run definitions children maxPasses) ∧
      (run definitions children maxPasses).passes ≤
        (classesOf definitions children).size * (4 * (propertiesOf definitions).size + 1) + 1 ∧
      ∀ r ∈ (run definitions children maxPasses).diagnostics, r.kind ≠ .softwareBug := by
  have hroom : definitions.room (classesOf definitions children).toList
      (propertiesOf definitions).toList ≤ (classesOf definitions children).size *
        (4 * (propertiesOf definitions).size + 1) := Definitions.room_le _ _ definitions
  have hchildren : ∀ iri ∈ children.values.flatten,
      iri ∈ (classesOf definitions children).toList := fun iri hiri ↦
    DistinctList.mem_ofList.2 (List.mem_append_right _ hiri)
  obtain ⟨hquiet, hpasses⟩ := iterate_quiet_of_room hchildren maxPasses
    { definitions, diagnostics := [], passes := 0, quiet := false } (only_propertiesOf definitions)
    (by dsimp only; omega)
  have hend : (run definitions children maxPasses).quiet = true := hquiet
  refine ⟨endsQuietly_of_quiet hend, ?_, fun r hr ↦ ?_⟩
  · have hle : (run definitions children maxPasses).passes ≤ 0 + definitions.room
        (classesOf definitions children).toList (propertiesOf definitions).toList + 1 := hpasses
    omega
  · rw [kind_of_quiet hend hr]
    decide

/-- A class with crossed bounds that is its own parent, on a cycle with a class that has a range. -/
def crossedClasses : Definitions :=
  .ofList
    [("A", .restricted <| .set { «class» := "A" } "p"
        { «class» := some "A", property := some "p", min := some 5, max := some 1 }),
      ("B", .restricted <| .set { «class» := "B" } "p"
        { «class» := some "B", property := some "p", range := some "R" }),
      ("D", .unconstrained)]

def crossedEdges : OrderedMap Iri (List Iri) :=
  .ofList [("A", ["A", "B"]), ("B", ["A", "D"]), ("D", ["C"])]

theorem run_quiet_crossedClasses :
    (classesOf crossedClasses crossedEdges).size * (4 * (propertiesOf crossedClasses).size + 1) + 1 ≤
        21 ∧
      EndsQuietly crossedEdges crossedClasses (run crossedClasses crossedEdges 21) ∧
      (run crossedClasses crossedEdges 21).passes = 2 ∧
      ∀ r ∈ (run crossedClasses crossedEdges 21).diagnostics, r.kind ≠ .softwareBug := by
  have hpasses : (classesOf crossedClasses crossedEdges).size *
      (4 * (propertiesOf crossedClasses).size + 1) + 1 ≤ 21 := by decide +kernel
  obtain ⟨hends, -, hreports⟩ := run_quiet_of_many_passes crossedClasses crossedEdges 21 hpasses
  exact ⟨hpasses, hends, by decide +kernel, hreports⟩

end Inheritance

end OntologyGuard
