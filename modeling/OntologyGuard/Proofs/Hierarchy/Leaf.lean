import OntologyGuard.Proofs.Hierarchy.Cycles

namespace OntologyGuard.Hierarchy

variable {before after : Hierarchy} {edge : Iri × Iri} {leaf : Iri} {n : Nat} {a b : Iri}

/-- The later hierarchy has edges to one more class, which is not a parent in the earlier one. In the
later one it may be its own. -/
structure AddsLeaf (before after : Hierarchy) (leaf : Iri) : Prop where
  edges : (after.edges.filter fun edge ↦ edge.2 ≠ leaf) = before.edges
  childless : ∀ edge ∈ before.edges, edge.1 ≠ leaf

namespace AddsLeaf

theorem mem_edges_iff (h : AddsLeaf before after leaf) :
    edge ∈ before.edges ↔ edge ∈ after.edges ∧ edge.2 ≠ leaf := by
  rw [← h.edges, List.mem_filter, decide_eq_true_eq]

theorem path_iff (h : AddsLeaf before after leaf) (hb : b ≠ leaf) :
    Path after.edges n a b ↔ Path before.edges n a b := by
  constructor
  · intro path
    induction path with
    | nil a => exact .nil a
    | snoc path edge ih =>
      have hedge := h.mem_edges_iff.2 ⟨edge, hb⟩
      exact (ih (h.childless _ hedge)).snoc hedge
  · intro path
    exact path.mono fun _ hedge ↦ (h.mem_edges_iff.1 hedge).1

theorem isBelow_eq (h : AddsLeaf before after leaf) (hb : b ≠ leaf) :
    after.isBelow b a = before.isBelow b a := by
  rw [Bool.eq_iff_iff, isBelow_iff, isBelow_iff]
  exact exists_congr fun n ↦ h.path_iff hb

theorem mem_cyclicEdges_iff (h : AddsLeaf before after leaf) :
    edge ∈ before.cyclicEdges ↔ edge ∈ after.cyclicEdges ∧ edge.2 ≠ leaf := by
  unfold cyclicEdges
  rw [List.mem_filter, List.mem_filter, and_right_comm, ← h.mem_edges_iff]
  refine and_congr_right fun hedge ↦ ?_
  rw [onCycle, onCycle, h.isBelow_eq (h.childless edge hedge)]

theorem eq_of_mem_cyclicEdges (h : AddsLeaf before after leaf)
    (hedge : (a, leaf) ∈ after.cyclicEdges) : a = leaf := by
  have hcycle := (List.mem_filter.1 hedge).2
  by_contra ha
  -- the way back to another parent would begin with an edge from the leaf
  have hbelow : after.isBelow a leaf = true := by simpa [onCycle, ha] using hcycle
  rw [h.isBelow_eq ha] at hbelow
  obtain ⟨n, path⟩ := isBelow_iff.1 hbelow
  obtain ⟨c, hfirst, -⟩ := path.exists_first
  exact h.childless _ hfirst rfl

theorem breakCycles (h : AddsLeaf before after leaf) :
    AddsLeaf before.breakCycles.1 after.breakCycles.1 leaf := by
  constructor
  · rw [edges_breakCycles, edges_breakCycles, ← h.edges, List.filter_filter, List.filter_filter]
    refine List.filter_congr fun edge _ ↦ ?_
    by_cases hleaf : edge.2 = leaf
    · simp [hleaf]
    · simp [hleaf, h.mem_cyclicEdges_iff]
  · intro edge hedge
    exact h.childless edge (mem_edges_breakCycles.1 hedge).1

theorem childless_breakCycles (h : AddsLeaf before after leaf) :
    ∀ edge ∈ after.breakCycles.1.edges, edge.1 ≠ leaf := by
  intro edge hedge hparent
  obtain ⟨hdeclared, hkept⟩ := mem_edges_breakCycles.1 hedge
  by_cases hchild : edge.2 = leaf
  · apply hkept
    refine List.mem_filter.2 ⟨hdeclared, ?_⟩
    simp [onCycle, hparent, hchild]
  · exact h.childless edge (h.mem_edges_iff.2 ⟨hdeclared, hchild⟩) hparent

theorem mem_cyclicClasses_iff (h : AddsLeaf before after leaf) (ha : a ≠ leaf) :
    a ∈ after.cyclicClasses ↔ a ∈ before.cyclicClasses := by
  unfold cyclicClasses
  rw [DistinctList.mem_ofList, DistinctList.mem_ofList, List.mem_flatMap, List.mem_flatMap]
  refine exists_congr fun edge ↦ and_congr_left fun hmem ↦ ?_
  have hchild : edge ∈ after.cyclicEdges → edge.2 ≠ leaf := by
    intro hedge hleaf
    have hparent : edge.1 = leaf := h.eq_of_mem_cyclicEdges (hleaf ▸ hedge)
    rw [hparent, hleaf] at hmem
    exact ha (by simpa using hmem)
  rw [h.mem_cyclicEdges_iff, and_iff_left_of_imp hchild]

theorem mem_reports_iff (h : AddsLeaf before after leaf) {r : Diagnostic}
    (hr : r.class ≠ some leaf) : r ∈ after.breakCycles.2 ↔ r ∈ before.breakCycles.2 := by
  unfold Hierarchy.breakCycles
  rw [List.mem_map, List.mem_map]
  refine exists_congr fun iri ↦ and_congr_left fun hreport ↦ h.mem_cyclicClasses_iff ?_
  rintro rfl
  exact hr (hreport ▸ rfl)

end AddsLeaf

theorem edges_addEdge_filter (h : Hierarchy) (parent child : Iri) :
    ((h.addEdge parent child).edges.filter fun edge ↦ edge.2 ≠ child) =
      h.edges.filter fun edge ↦ edge.2 ≠ child := by
  unfold edges
  rw [List.filter_flatMap, List.filter_flatMap]
  refine OrderedMap.flatMap_update ?_ rfl
  intro children
  by_cases hmem : child ∈ children
  · simp [addNew, hmem]
  · simp [addNew, hmem]

theorem edges_addDescription_filter (h : Hierarchy) (d : ClassDescription) :
    ((h.addDescription d).edges.filter fun edge ↦ edge.2 ≠ d.iri) =
      h.edges.filter fun edge ↦ edge.2 ≠ d.iri := by
  unfold addDescription
  generalize hstart : h.addClass d.iri = start
  have hedges : start.edges = h.edges := hstart ▸ rfl
  rw [← hedges]
  clear hstart hedges
  induction d.parents generalizing start with
  | nil => rfl
  | cons parent rest ih => rw [List.foldl_cons, ih, edges_addEdge_filter]

theorem addsLeaf_ofClasses {classes : List ClassDescription} {added : ClassDescription}
    (hnew : ∀ d ∈ classes, d.iri ≠ added.iri ∧ added.iri ∉ d.parents) :
    AddsLeaf (ofClasses classes) (ofClasses (classes ++ [added])) added.iri := by
  have hdeclared (edge : Iri × Iri) (hedge : edge ∈ (ofClasses classes).edges) :
      ∃ d ∈ classes, d.iri = edge.2 ∧ edge.1 ∈ d.parents :=
    mem_childrenOf_ofClasses.1 (mem_edges.1 hedge)
  constructor
  · have happend : ofClasses (classes ++ [added]) = (ofClasses classes).addDescription added := by
      rw [ofClasses, List.foldl_append]
      rfl
    rw [happend, edges_addDescription_filter, List.filter_eq_self]
    intro edge hedge
    obtain ⟨d, hd, hiri, -⟩ := hdeclared edge hedge
    exact decide_eq_true (hiri ▸ (hnew d hd).1)
  · intro edge hedge hparent
    obtain ⟨d, hd, -, hmem⟩ := hdeclared edge hedge
    exact (hnew d hd).2 (hparent ▸ hmem)

end OntologyGuard.Hierarchy
