import OntologyGuard.Proofs.Hierarchy.Cycles

namespace OntologyGuard.OrderedMap

universe u v

variable {κ : Type u} {ν ν' : Type v}

theorem keys_mapValues (f : κ → ν → ν') (m : OrderedMap κ ν) : (m.mapValues f).keys = m.keys := by
  simp [keys, mapValues, Function.comp_def]

theorem mapValues_eq_self {f : κ → ν → ν} {m : OrderedMap κ ν} (h : ∀ key value, f key value = value) :
    m.mapValues f = m := by
  apply ext_entries
  simp [mapValues, h]

end OntologyGuard.OrderedMap

namespace OntologyGuard.Hierarchy

variable {h : Hierarchy} {parent child p c : Iri}

def addEdges (h : Hierarchy) (added : List (Iri × Iri)) : Hierarchy :=
  added.foldl (fun h edge ↦ h.addEdge edge.1 edge.2) h

/-- The two sides of a hierarchy record the same edges, each of them once. -/
structure Mirrored (h : Hierarchy) : Prop where
  mem_iff : ∀ p c, c ∈ h.childrenOf p ↔ p ∈ h.parentsOf c
  nodup_children : ∀ p, (h.childrenOf p).Nodup
  nodup_parents : ∀ c, (h.parentsOf c).Nodup

theorem nodup_addNew {iri : Iri} {list : List Iri} (hlist : list.Nodup) : (addNew iri list).Nodup := by
  unfold addNew
  split
  · exact hlist
  next hnew =>
    refine List.nodup_append.2 ⟨hlist, List.nodup_singleton iri, ?_⟩
    intro a ha b hb heq
    exact hnew (List.mem_singleton.1 hb ▸ heq ▸ ha)

theorem childrenOf_addEdge (h : Hierarchy) (parent child p : Iri) :
    (h.addEdge parent child).childrenOf p =
      if p = parent then addNew child (h.childrenOf parent) else h.childrenOf p := by
  simp only [childrenOf, addEdge, OrderedMap.get?_update]
  split <;> rfl

theorem parentsOf_addEdge (h : Hierarchy) (parent child c : Iri) :
    (h.addEdge parent child).parentsOf c =
      if c = child then addNew parent (h.parentsOf child) else h.parentsOf c := by
  simp only [parentsOf, addEdge, OrderedMap.get?_update]
  split <;> rfl

theorem parentsOf_addClass (h : Hierarchy) (iri c : Iri) :
    (h.addClass iri).parentsOf c = h.parentsOf c := by
  simp only [parentsOf, addClass, OrderedMap.get?_update]
  split
  next heq => simp [heq]
  next => rfl

namespace Mirrored

theorem empty : Mirrored {} :=
  ⟨fun _ _ ↦ iff_of_false List.not_mem_nil List.not_mem_nil, fun _ ↦ .nil, fun _ ↦ .nil⟩

theorem addClass (hm : Mirrored h) (iri : Iri) : Mirrored (h.addClass iri) where
  mem_iff p c := by
    rw [parentsOf_addClass]
    exact hm.mem_iff p c
  nodup_children := hm.nodup_children
  nodup_parents c := by
    rw [parentsOf_addClass]
    exact hm.nodup_parents c

theorem addEdge (hm : Mirrored h) (parent child : Iri) : Mirrored (h.addEdge parent child) where
  mem_iff p c := by
    have hold := hm.mem_iff p c
    rw [childrenOf_addEdge, parentsOf_addEdge]
    by_cases hp : p = parent <;> by_cases hc : c = child <;> simp_all [mem_addNew]
  nodup_children p := by
    rw [childrenOf_addEdge]
    split
    · exact nodup_addNew (hm.nodup_children parent)
    · exact hm.nodup_children p
  nodup_parents c := by
    rw [parentsOf_addEdge]
    split
    · exact nodup_addNew (hm.nodup_parents child)
    · exact hm.nodup_parents c

theorem addDescription (hm : Mirrored h) (description : ClassDescription) :
    Mirrored (h.addDescription description) :=
  List.foldlRecOn description.parents _ (hm.addClass description.iri)
    fun _ hstep parent _ ↦ hstep.addEdge parent description.iri

theorem ofClasses (classes : List ClassDescription) : Mirrored (ofClasses classes) :=
  List.foldlRecOn classes _ empty fun _ hstep description _ ↦ hstep.addDescription description

theorem addEdges (hm : Mirrored h) (added : List (Iri × Iri)) : Mirrored (h.addEdges added) :=
  List.foldlRecOn added _ hm fun _ hstep edge _ ↦ hstep.addEdge edge.1 edge.2

end Mirrored

theorem childrenOf_breakCycles_eq_filter (h : Hierarchy) (p : Iri) :
    h.breakCycles.1.childrenOf p = (h.childrenOf p).filter fun c ↦ (p, c) ∉ h.cyclicEdges := by
  simp only [breakCycles, childrenOf, OrderedMap.get?_mapValues]
  cases h.children.get? p <;> rfl

theorem parentsOf_breakCycles_eq_filter (h : Hierarchy) (c : Iri) :
    h.breakCycles.1.parentsOf c = (h.parentsOf c).filter fun p ↦ (p, c) ∉ h.cyclicEdges := by
  simp only [breakCycles, parentsOf, OrderedMap.get?_mapValues]
  cases h.parents.get? c <;> rfl

theorem Mirrored.breakCycles (hm : Mirrored h) : Mirrored h.breakCycles.1 where
  mem_iff p c := by
    rw [childrenOf_breakCycles_eq_filter, parentsOf_breakCycles_eq_filter, List.mem_filter,
      List.mem_filter, hm.mem_iff]
  nodup_children p := by
    rw [childrenOf_breakCycles_eq_filter]
    exact (hm.nodup_children p).filter _
  nodup_parents c := by
    rw [parentsOf_breakCycles_eq_filter]
    exact (hm.nodup_parents c).filter _

theorem onCycle_iff :
    h.onCycle parent child = true ↔ parent = child ∨ ∃ n, Path h.edges (n + 1) child parent := by
  rw [onCycle, Bool.or_eq_true, decide_eq_true_eq, isBelow_iff]

theorem mem_cyclicEdges : (parent, child) ∈ h.cyclicEdges ↔ (parent, child) ∈ h.edges ∧
    (parent = child ∨ ∃ n, Path h.edges (n + 1) child parent) := by
  rw [cyclicEdges, List.mem_filter, onCycle_iff]

theorem not_mem_breakCycles_iff (hedge : (parent, child) ∈ h.edges) :
    (parent, child) ∉ h.breakCycles.1.edges ↔
      parent = child ∨ ∃ n, Path h.edges (n + 1) child parent := by
  rw [mem_edges_breakCycles, not_and_not_right, mem_cyclicEdges]
  simp only [hedge, true_and, forall_const]

/-- Each end of an edge on a cycle lies on the cycle, and a way round enters its start by such an
edge. -/
theorem mem_cyclicClasses_iff_path {iri : Iri} :
    iri ∈ h.cyclicClasses ↔ ∃ n, Path h.edges (n + 1) iri iri := by
  rw [cyclicClasses, DistinctList.mem_ofList, List.mem_flatMap]
  constructor
  · rintro ⟨⟨parent, child⟩, hedge, hiri⟩
    obtain ⟨hedge, hback⟩ := mem_cyclicEdges.1 hedge
    have down : Path h.edges 1 parent child := (Path.nil parent).snoc hedge
    have hends : iri = parent ∨ iri = child := by simpa using hiri
    rcases hback with rfl | ⟨n, back⟩
    · obtain rfl : iri = parent := hends.elim id id
      exact ⟨0, down⟩
    · rcases hends with rfl | rfl
      · exact ⟨1 + n, down.trans back⟩
      · exact ⟨n + 1, back.trans down⟩
  · rintro ⟨n, path⟩
    cases path with
    | @snoc _ _ parent _ path edge =>
      refine ⟨(parent, iri), mem_cyclicEdges.2 ⟨edge, ?_⟩, by simp⟩
      cases n with
      | zero =>
        cases path
        exact .inl rfl
      | succ n => exact .inr ⟨n, path⟩

theorem cyclicEdges_eq_nil_of_acyclic (hacyclic : Acyclic h.edges) : h.cyclicEdges = [] := by
  refine List.eq_nil_iff_forall_not_mem.2 fun edge hedge ↦ ?_
  obtain ⟨hmem, hback⟩ := mem_cyclicEdges.1 hedge
  have down : Path h.edges 1 edge.1 edge.2 := (Path.nil edge.1).snoc hmem
  rcases hback with heq | ⟨n, back⟩
  · exact hacyclic 0 edge.1 (heq ▸ down)
  · exact hacyclic (n + 1) edge.2 (back.trans down)

theorem breakCycles_of_acyclic (hacyclic : Acyclic h.edges) : h.breakCycles = (h, []) := by
  have hnil := cyclicEdges_eq_nil_of_acyclic hacyclic
  have hclasses : h.cyclicClasses.toList = [] := by
    rw [cyclicClasses, hnil]
    rfl
  simp [breakCycles, hnil, hclasses, OrderedMap.mapValues_eq_self]

/-- What removing the cycles of a hierarchy has to leave of it and to report. -/
structure CyclesRemoved (before after : Hierarchy) (reports : List Diagnostic) : Prop where
  acyclic : Acyclic after.edges
  removed_iff : ∀ parent child, (parent, child) ∈ before.edges →
    ((parent, child) ∉ after.edges ↔
      parent = child ∨ ∃ n, Path before.edges (n + 1) child parent)
  edges_sublist : after.edges.Sublist before.edges
  childrenOf_sublist : ∀ p, (after.childrenOf p).Sublist (before.childrenOf p)
  parentsOf_sublist : ∀ c, (after.parentsOf c).Sublist (before.parentsOf c)
  keys_children : after.children.keys = before.children.keys
  keys_parents : after.parents.keys = before.parents.keys
  mirrored : Mirrored after
  reports_eq : ∃ classes : List Iri, classes.Nodup ∧
    (∀ iri, iri ∈ classes ↔ ∃ n, Path before.edges (n + 1) iri iri) ∧
    reports = classes.map fun iri ↦
      { kind := .ontologyError
        message := "class is part of a subclass cycle"
        «class» := some iri }
  again : after.breakCycles = (after, [])

/-- Whatever descriptions and further edges a hierarchy is made of, breaking its cycles removes the edges
on them and nothing else. -/
theorem cyclesRemoved_of_declared (classes : List ClassDescription) (added : List (Iri × Iri)) :
    CyclesRemoved ((ofClasses classes).addEdges added)
      ((ofClasses classes).addEdges added).breakCycles.1
      ((ofClasses classes).addEdges added).breakCycles.2 := by
  have hm := (Mirrored.ofClasses classes).addEdges added
  generalize (ofClasses classes).addEdges added = h at hm
  constructor
  case acyclic => exact acyclic_breakCycles h
  case removed_iff => exact fun _ _ ↦ not_mem_breakCycles_iff
  case edges_sublist =>
    rw [edges_breakCycles]
    exact List.filter_sublist
  case childrenOf_sublist =>
    intro p
    rw [childrenOf_breakCycles_eq_filter]
    exact List.filter_sublist
  case parentsOf_sublist =>
    intro c
    rw [parentsOf_breakCycles_eq_filter]
    exact List.filter_sublist
  case keys_children => exact OrderedMap.keys_mapValues _ _
  case keys_parents => exact OrderedMap.keys_mapValues _ _
  case mirrored => exact hm.breakCycles
  case reports_eq =>
    exact ⟨h.cyclicClasses.toList, h.cyclicClasses.nodup, fun _ ↦ mem_cyclicClasses_iff_path, rfl⟩
  case again => exact breakCycles_of_acyclic (acyclic_breakCycles h)

/-- Two cycles share a class; the way from one of them down to the next stays. -/
example : ((ofClasses [{ iri := "A", parents := ["C", "A"] }]).addEdges
    [("A", "B"), ("B", "C"), ("C", "D"), ("D", "E"), ("E", "D")]).breakCycles.1.edges =
      [("C", "D")] := by
  decide +kernel

end OntologyGuard.Hierarchy
