import OntologyGuard.Hierarchy
import OntologyGuard.Proofs.Data.OrderedMap

namespace OntologyGuard.Hierarchy

variable {h : Hierarchy} {parent child p c : Iri}

theorem mem_addNew {iri : Iri} {list : List Iri} : c ∈ addNew iri list ↔ c ∈ list ∨ c = iri := by
  unfold addNew
  split
  next hmem => grind
  next => simp

theorem mem_childrenOf_addEdge :
    c ∈ (h.addEdge parent child).childrenOf p ↔ c ∈ h.childrenOf p ∨ p = parent ∧ c = child := by
  simp only [childrenOf, addEdge, OrderedMap.get?_update]
  by_cases hp : p = parent
  · simp [hp, mem_addNew]
  · simp [hp]

theorem mem_childrenOf_foldl_addEdge {parents : List Iri} :
    c ∈ (parents.foldl (fun h parent ↦ h.addEdge parent child) h).childrenOf p ↔
      c ∈ h.childrenOf p ∨ c = child ∧ p ∈ parents := by
  induction parents generalizing h with
  | nil => simp
  | cons parent rest ih =>
    rw [List.foldl_cons, ih, mem_childrenOf_addEdge, List.mem_cons]
    grind

theorem mem_childrenOf_addDescription {description : ClassDescription} :
    c ∈ (h.addDescription description).childrenOf p ↔
      c ∈ h.childrenOf p ∨ c = description.iri ∧ p ∈ description.parents :=
  mem_childrenOf_foldl_addEdge

theorem mem_childrenOf_ofClasses {classes : List ClassDescription} :
    c ∈ (ofClasses classes).childrenOf p ↔ ∃ d ∈ classes, d.iri = c ∧ p ∈ d.parents := by
  have hfold (h : Hierarchy) : c ∈ (classes.foldl addDescription h).childrenOf p ↔
      c ∈ h.childrenOf p ∨ ∃ d ∈ classes, d.iri = c ∧ p ∈ d.parents := by
    induction classes generalizing h with
    | nil => simp
    | cons d rest ih =>
      rw [List.foldl_cons, ih, mem_childrenOf_addDescription, eq_comm (a := c), or_assoc]
      simp only [List.mem_cons, exists_eq_or_imp]
  refine (hfold {}).trans (or_iff_right ?_)
  exact List.not_mem_nil

theorem mem_edges : (p, c) ∈ h.edges ↔ c ∈ h.childrenOf p := by
  simp only [edges, childrenOf, List.mem_flatMap, List.mem_map, Prod.mk.injEq]
  constructor
  · rintro ⟨⟨q, list⟩, hmem, d, hd, rfl, rfl⟩
    rw [OrderedMap.get?_eq_some_iff.2 hmem]
    exact hd
  · intro hc
    cases hget : h.children.get? p with
    | none => simp [hget] at hc
    | some list =>
      rw [hget] at hc
      exact ⟨(p, list), OrderedMap.get?_eq_some_iff.1 hget, c, hc, rfl, rfl⟩

theorem cyclicEdges_eq_nil (hnil : h.breakCycles.2 = []) : h.cyclicEdges = [] := by
  have hclasses : h.cyclicClasses.toList = [] := List.map_eq_nil_iff.1 hnil
  refine List.eq_nil_iff_forall_not_mem.2 fun edge hedge ↦ ?_
  have hmem : edge.1 ∈ h.cyclicClasses :=
    DistinctList.mem_ofList.2 (List.mem_flatMap.2 ⟨edge, hedge, List.mem_cons_self⟩)
  rw [DistinctList.mem_def, hclasses] at hmem
  cases hmem

theorem childrenOf_breakCycles (hnil : h.breakCycles.2 = []) (p : Iri) :
    h.breakCycles.1.childrenOf p = h.childrenOf p := by
  simp only [breakCycles, childrenOf, cyclicEdges_eq_nil hnil, OrderedMap.get?_mapValues,
    List.not_mem_nil, not_false_eq_true, decide_true]
  cases h.children.get? p <;> simp

end OntologyGuard.Hierarchy
