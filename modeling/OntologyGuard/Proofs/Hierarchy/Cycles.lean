import Mathlib.Data.List.Perm.Subperm
import OntologyGuard.Proofs.Hierarchy
import OntologyGuard.Proofs.Hierarchy.Path

namespace OntologyGuard.Hierarchy

variable {steps : OrderedMap Iri (List Iri)} {seen : DistinctList Iri} {frontier : List Iri}

def following (steps : OrderedMap Iri (List Iri)) (iri : Iri) : List Iri :=
  (steps.get? iri).getD []

def Closed (steps : OrderedMap Iri (List Iri)) (seen : DistinctList Iri) : Prop :=
  ∀ a ∈ seen, ∀ b ∈ following steps a, b ∈ seen

def expanded (steps : OrderedMap Iri (List Iri)) (list : List Iri) : List Iri :=
  list.filter (· ∈ steps.keys)

theorem following_eq_nil {iri : Iri} (h : iri ∉ steps.keys) : following steps iri = [] := by
  unfold following
  cases hget : steps.get? iri with
  | none => rfl
  | some list => exact absurd (OrderedMap.mem_keys_iff.2 ⟨list, hget⟩) h

theorem length_expanded_le (steps : OrderedMap Iri (List Iri)) (seen : DistinctList Iri) :
    (expanded steps seen.toList).length ≤ steps.size := by
  have hsubset : expanded steps seen.toList ⊆ steps.keys := by
    intro iri hiri
    exact of_decide_eq_true (List.mem_filter.1 hiri).2
  have hle := ((seen.nodup.filter _).subperm hsubset).length_le
  rwa [OrderedMap.keys, List.length_map] at hle

/-- The rounds of a search that ends because nothing is new. -/
inductive Explores (next : Iri → List Iri) : DistinctList Iri → List Iri → DistinctList Iri → Prop
  | finished {seen : DistinctList Iri} {frontier : List Iri} (known : ∀ a ∈ frontier, a ∈ seen) :
    Explores next seen frontier seen
  | round {seen result : DistinctList Iri} {frontier fresh : List Iri}
    (grown : (seen.append frontier).toList = seen.toList ++ fresh)
    (new : ∀ a ∈ fresh, a ∈ frontier ∧ a ∉ seen)
    (later : Explores next (seen.append frontier) (fresh.flatMap next) result) :
    Explores next seen frontier result

/-- Every round but the last two brings a new key of the map, so the rounds last until nothing is
new. -/
theorem explores_explore (rounds : Nat) (seen : DistinctList Iri) (frontier : List Iri)
    (hrounds : (∀ a ∈ frontier, a ∈ seen) ∨
      steps.size + 2 ≤ rounds + (expanded steps seen.toList).length) :
    Explores (following steps) seen frontier (explore (following steps) rounds seen frontier) := by
  induction rounds generalizing seen frontier with
  | zero =>
    have hle := length_expanded_le steps seen
    rcases hrounds with hold | hrounds
    · exact .finished hold
    · omega
  | succ rounds ih =>
    obtain ⟨fresh, hfresh, hnew⟩ := DistinctList.exists_fresh seen frontier
    have hdrop : (seen.append frontier).toList.drop seen.size = fresh := by
      rw [hfresh, DistinctList.size, List.drop_left]
    unfold explore
    dsimp only
    rw [hdrop]
    cases fresh with
    | nil =>
      apply Explores.finished
      intro a ha
      have hmem : a ∈ seen.append frontier := DistinctList.mem_append.2 (.inr ha)
      rwa [DistinctList.mem_def, hfresh, List.append_nil] at hmem
    | cons first rest =>
      obtain ⟨hfirst, hunseen⟩ := hnew first List.mem_cons_self
      have hleft := hrounds.resolve_left fun hold ↦ hunseen (hold first hfirst)
      have hsum : (expanded steps (seen.append frontier).toList).length =
          (expanded steps seen.toList).length + (expanded steps (first :: rest)).length := by
        rw [hfresh, expanded, List.filter_append, List.length_append]
        rfl
      refine .round hfresh hnew (ih _ _ ?_)
      by_cases hkey : ∃ a ∈ first :: rest, a ∈ steps.keys
      · obtain ⟨a, ha, hsteps⟩ := hkey
        have hpos : 0 < (expanded steps (first :: rest)).length :=
          List.length_pos_of_mem (List.mem_filter.2 ⟨ha, decide_eq_true hsteps⟩)
        right
        omega
      · left
        intro b hb
        obtain ⟨a, ha, hb⟩ := List.mem_flatMap.1 hb
        rw [following_eq_nil fun hsteps ↦ hkey ⟨a, ha, hsteps⟩] at hb
        cases hb

theorem explores_reach (steps : OrderedMap Iri (List Iri)) (start : Iri) :
    Explores (following steps) .empty (following steps start) (reach steps start) :=
  explores_explore _ _ _ (.inr (Nat.le_add_right _ _))

theorem Explores.closed {result : DistinctList Iri}
    (h : Explores (following steps) seen frontier result)
    (hnext : ∀ a ∈ seen, ∀ b ∈ following steps a, b ∈ seen ∨ b ∈ frontier) :
    (∀ a, a ∈ seen ∨ a ∈ frontier → a ∈ result) ∧ Closed steps result := by
  induction h with
  | finished known =>
    exact ⟨fun a ha ↦ ha.elim id (known a), fun a ha b hb ↦ (hnext a ha b hb).elim id (known b)⟩
  | @round seen result frontier fresh grown _ _ ih =>
    obtain ⟨hkeep, hclosed⟩ := ih fun a ha b hb ↦ by
      rw [DistinctList.mem_def, grown, List.mem_append] at ha
      rcases ha with hold | hfresh
      · exact .inl (DistinctList.mem_append.2 (hnext a hold b hb))
      · exact .inr (List.mem_flatMap.2 ⟨a, hfresh, hb⟩)
    exact ⟨fun a ha ↦ hkeep a (.inl (DistinctList.mem_append.2 ha)), hclosed⟩

theorem reach_closed (steps : OrderedMap Iri (List Iri)) (start : Iri) :
    (∀ a ∈ following steps start, a ∈ reach steps start) ∧ Closed steps (reach steps start) := by
  obtain ⟨hkeep, hclosed⟩ :=
    (explores_reach steps start).closed fun a ha ↦ absurd ha List.not_mem_nil
  exact ⟨fun a ha ↦ hkeep a (.inr ha), hclosed⟩

theorem explore_induction {motive : Iri → Prop}
    (step : ∀ a, motive a → ∀ b ∈ following steps a, motive b) (rounds : Nat)
    (hseen : ∀ a ∈ seen, motive a) (hfrontier : ∀ a ∈ frontier, motive a) :
    ∀ a ∈ explore (following steps) rounds seen frontier, motive a := by
  induction rounds generalizing seen frontier with
  | zero => exact hseen
  | succ rounds ih =>
    have hgrown : ∀ a ∈ seen.append frontier, motive a := by
      intro a ha
      rcases DistinctList.mem_append.1 ha with ha | ha
      · exact hseen a ha
      · exact hfrontier a ha
    unfold explore
    dsimp only
    cases hfresh : (seen.append frontier).toList.drop seen.size with
    | nil => exact hseen
    | cons first rest =>
      apply ih hgrown
      intro b hb
      obtain ⟨a, ha, hb⟩ := List.mem_flatMap.1 hb
      rw [← hfresh] at ha
      exact step a (hgrown a (List.mem_of_mem_drop ha)) b hb

variable {h : Hierarchy} {n : Nat} {a b : Iri}

theorem isBelow_of_path (path : Path h.edges (n + 1) a b) : h.isBelow b a = true := by
  obtain ⟨hstart, hclosed⟩ := reach_closed h.children a
  have hmem : b ∈ reach h.children a := by
    induction n generalizing b with
    | zero =>
      cases path with
      | snoc path edge =>
        cases path
        exact hstart b (mem_edges.1 edge)
    | succ n ih =>
      cases path with
      | snoc path edge => exact hclosed _ (ih path) b (mem_edges.1 edge)
  exact decide_eq_true hmem

theorem isBelow_iff : h.isBelow b a = true ↔ ∃ n, Path h.edges (n + 1) a b := by
  constructor
  · intro hbelow
    refine explore_induction (motive := fun b ↦ ∃ n, Path h.edges (n + 1) a b) ?_ _ ?_ ?_ b
      (of_decide_eq_true hbelow)
    · intro b hpath c hc
      obtain ⟨n, path⟩ := hpath
      exact ⟨n + 1, path.snoc (mem_edges.2 hc)⟩
    · exact fun b hb ↦ absurd hb List.not_mem_nil
    · exact fun b hb ↦ ⟨0, (Path.nil a).snoc (mem_edges.2 hb)⟩
  · intro hpath
    obtain ⟨n, path⟩ := hpath
    exact isBelow_of_path path

theorem edges_breakCycles (h : Hierarchy) :
    h.breakCycles.1.edges = h.edges.filter fun edge ↦ edge ∉ h.cyclicEdges := by
  simp only [edges, breakCycles, OrderedMap.mapValues, List.flatMap_map, List.filter_flatMap,
    List.filter_map]
  rfl

theorem mem_edges_breakCycles :
    (a, b) ∈ h.breakCycles.1.edges ↔ (a, b) ∈ h.edges ∧ (a, b) ∉ h.cyclicEdges := by
  rw [edges_breakCycles, List.mem_filter, decide_eq_true_eq]

theorem declared_of_mem_breakCycles {classes : List ClassDescription}
    (hedge : (a, b) ∈ (ofClasses classes).breakCycles.1.edges) :
    ∃ d ∈ classes, d.iri = b ∧ a ∈ d.parents :=
  mem_childrenOf_ofClasses.1 (mem_edges.1 (mem_edges_breakCycles.1 hedge).1)

/-- The last edge of a way round would lie on a cycle. -/
theorem acyclic_breakCycles (h : Hierarchy) : Acyclic h.breakCycles.1.edges := by
  intro n a path
  cases path with
  | @snoc _ _ b _ path edge =>
    obtain ⟨hedge, hkept⟩ := mem_edges_breakCycles.1 edge
    apply hkept
    refine List.mem_filter.2 ⟨hedge, ?_⟩
    have path' : Path h.edges n a b := path.mono fun _ he ↦ (mem_edges_breakCycles.1 he).1
    cases n with
    | zero =>
      cases path'
      simp [onCycle]
    | succ n => simp [onCycle, isBelow_of_path path']

end OntologyGuard.Hierarchy
