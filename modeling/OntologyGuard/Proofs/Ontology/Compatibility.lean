import OntologyGuard.Ontology.Resolution
import OntologyGuard.Proofs.Hierarchy.Ancestors
import OntologyGuard.Proofs.Text.Split

namespace OntologyGuard

open Relation (TransGen ReflTransGen)

variable {classes : List ClassDescription} {child parent v e : Iri}

def Declares (classes : List ClassDescription) (child parent : Iri) : Prop :=
  ∃ d ∈ classes, d.iri = child ∧ parent ∈ d.parents

/-- The parent is declared, and no chain of declarations leads from it back to the child. -/
def DeclaresOffCycle (classes : List ClassDescription) (child parent : Iri) : Prop :=
  Declares classes child parent ∧ ¬ ReflTransGen (Declares classes) parent child

theorem OrderedMap.get?_ofList_of_determined {ν : Type} {pairs : List (Iri × ν)} {g : Iri → ν}
    (h : ∀ pair ∈ pairs, pair.2 = g pair.1) (k : Iri) :
    (ofList pairs).get? k = if k ∈ pairs.map Prod.fst then some (g k) else none := by
  have hfold (m : OrderedMap Iri ν) :
      (pairs.foldl (fun m pair ↦ m.insert pair.1 pair.2) m).get? k =
        if k ∈ pairs.map Prod.fst then some (g k) else m.get? k := by
    induction pairs generalizing m with
    | nil => rfl
    | cons pair rest ih =>
      have hpair := h pair List.mem_cons_self
      rw [List.foldl_cons, ih fun p hp ↦ h p (List.mem_cons_of_mem _ hp), get?_insert]
      simp only [List.map_cons, List.mem_cons]
      by_cases hk : k = pair.1
      · simp [hk, hpair]
      · simp only [hk, false_or, if_false]
  exact hfold .empty

namespace Hierarchy

theorem mem_edges_ofClasses : (parent, child) ∈ (ofClasses classes).edges ↔
    Declares classes child parent :=
  mem_edges.trans mem_childrenOf_ofClasses

theorem mem_edges_breakCycles_ofClasses :
    (parent, child) ∈ (ofClasses classes).breakCycles.1.edges ↔
      DeclaresOffCycle classes child parent := by
  have hback : (parent = child ∨ ∃ n, Path (ofClasses classes).edges (n + 1) child parent) ↔
      ReflTransGen (Declares classes) parent child := by
    simp only [exists_path_iff, mem_edges_ofClasses, Relation.reflTransGen_iff_eq_or_transGen,
      eq_comm]
  rw [mem_edges_breakCycles, mem_cyclicEdges, hback, mem_edges_ofClasses, DeclaresOffCycle]
  exact and_congr_right fun hdeclares ↦ by simp only [hdeclares, true_and]

theorem mem_parentsOf_breakCycles_ofClasses :
    parent ∈ (ofClasses classes).breakCycles.1.parentsOf child ↔
      DeclaresOffCycle classes child parent := by
  rw [← (Mirrored.ofClasses classes).breakCycles.mem_iff, ← mem_edges,
    mem_edges_breakCycles_ofClasses]

theorem mem_ancestors_breakCycles :
    e ∈ (ofClasses classes).breakCycles.1.ancestors v ↔
      e ≠ v ∧ TransGen (DeclaresOffCycle classes) v e := by
  simp only [mem_ancestors, mem_parentsOf_breakCycles_ofClasses]

end Hierarchy

namespace AncestorTable

variable {table : AncestorTable}

def ancestorsOf (table : AncestorTable) (iri : Iri) : List Iri := (table.get? iri).getD []

theorem mem_ancestorsOf_addAncestor {iri ancestor : Iri} :
    e ∈ (table.addAncestor iri ancestor).ancestorsOf v ↔
      e ∈ table.ancestorsOf v ∨ v = iri ∧ e = ancestor := by
  simp only [ancestorsOf, addAncestor, OrderedMap.get?_update]
  by_cases hv : v = iri
  · simp [hv, Hierarchy.mem_addNew]
  · simp [hv]

theorem mem_ancestorsOf_foldl {α : Type} {iri ancestor : α → Iri} {items : List α} :
    e ∈ (items.foldl (fun table a ↦ table.addAncestor (iri a) (ancestor a)) table).ancestorsOf v ↔
      e ∈ table.ancestorsOf v ∨ ∃ a ∈ items, v = iri a ∧ e = ancestor a := by
  induction items generalizing table with
  | nil => simp
  | cons a rest ih =>
    rw [List.foldl_cons, ih, mem_ancestorsOf_addAncestor, or_assoc]
    simp only [List.mem_cons, exists_eq_or_imp]

theorem mem_ancestorsOf_ofClasses (hown : ∀ d ∈ classes, d.ancestors = none) :
    e ∈ (ofClasses (Hierarchy.ofClasses classes).breakCycles.1 classes).ancestorsOf v ↔
      e ≠ v ∧ TransGen (DeclaresOffCycle classes) v e := by
  have hdetermined : ∀ pair ∈ classes.map (fun c ↦ (c.iri, c.ancestors.getD
      ((Hierarchy.ofClasses classes).breakCycles.1.ancestors c.iri))),
      pair.2 = (Hierarchy.ofClasses classes).breakCycles.1.ancestors pair.1 := by
    intro pair hpair
    obtain ⟨d, hd, rfl⟩ := List.mem_map.1 hpair
    simp [hown d hd]
  rw [ancestorsOf, ofClasses, OrderedMap.get?_ofList_of_determined hdetermined]
  split
  · exact Hierarchy.mem_ancestors_breakCycles
  next hundescribed =>
    refine iff_of_false List.not_mem_nil ?_
    rintro ⟨-, hup⟩
    obtain ⟨p, ⟨⟨d, hd, rfl, -⟩, -⟩, -⟩ := TransGen.head'_iff.1 hup
    exact hundescribed (List.mem_map.2 ⟨_, List.mem_map.2 ⟨d, hd, rfl⟩, rfl⟩)

theorem mem_vocabularyClasses {namespaces : List String} :
    e ∈ vocabularyClasses namespaces classes ↔
      ∃ d ∈ classes, d.iri = e ∧ ∃ head ∈ namespaces, ∃ tail, e = head ++ tail := by
  simp only [vocabularyClasses, List.mem_map, List.mem_filter, List.any_eq_true, Text.startsWith_iff]
  constructor
  · rintro ⟨d, ⟨hd, hspace⟩, rfl⟩
    exact ⟨d, hd, rfl, hspace⟩
  · rintro ⟨d, hd, rfl, hspace⟩
    exact ⟨d, ⟨hd, hspace⟩, rfl⟩

theorem mem_ancestorsOf_build {config : ResolverConfig} {hierarchy : Hierarchy} :
    e ∈ (build config hierarchy classes).ancestorsOf v ↔
      e ∈ (ofClasses hierarchy classes).ancestorsOf v ∨ (v, e) ∈ config.numericWidening ∨
      v = Xsd.string ∧ e ∈ vocabularyClasses config.vocabularyNamespaces classes := by
  have hpairs : (∃ pair ∈ config.numericWidening, v = pair.1 ∧ e = pair.2) ↔
      (v, e) ∈ config.numericWidening := by
    constructor
    · rintro ⟨pair, hpair, rfl, rfl⟩
      exact hpair
    · exact fun hpair ↦ ⟨(v, e), hpair, rfl, rfl⟩
  have hwords : (∃ iri ∈ vocabularyClasses config.vocabularyNamespaces classes,
      v = Xsd.string ∧ e = iri) ↔
      v = Xsd.string ∧ e ∈ vocabularyClasses config.vocabularyNamespaces classes := by
    constructor
    · rintro ⟨iri, hiri, hv, rfl⟩
      exact ⟨hv, hiri⟩
    · exact fun ⟨hv, hiri⟩ ↦ ⟨e, hiri, hv, rfl⟩
  rw [build, mem_ancestorsOf_foldl, mem_ancestorsOf_foldl, hpairs, hwords, or_assoc]

end AncestorTable

namespace Ontology

/-- A type may stand for itself, for what lies above it by parents off all cycles, for what the
configuration widens it to and, if it is the type of plain strings, for the classes of a vocabulary. -/
theorem isCompatible_resolve_iff (config : ResolverConfig) (document : OntologyDocument)
    (hown : ∀ d ∈ document.classes, d.ancestors = none) (v e : Iri) :
    (resolve config document).isCompatible v e = true ↔
      v = e ∨ TransGen (DeclaresOffCycle document.classes) v e ∨
      (v, e) ∈ config.numericWidening ∨
      v = Xsd.string ∧ ∃ d ∈ document.classes, d.iri = e ∧
        ∃ head ∈ config.vocabularyNamespaces, ∃ tail, e = head ++ tail := by
  have hlookup : (resolve config document).isCompatible v e = true ↔
      v = e ∨ e ∈ (AncestorTable.build config (Hierarchy.ofClasses document.classes).breakCycles.1
        document.classes).ancestorsOf v := by
    rw [isCompatible, Bool.or_eq_true, decide_eq_true_eq, List.contains_iff_mem]
    rfl
  rw [hlookup, AncestorTable.mem_ancestorsOf_build, AncestorTable.mem_ancestorsOf_ofClasses hown,
    AncestorTable.mem_vocabularyClasses]
  by_cases heq : v = e
  · simp [heq]
  · simp [heq, Ne.symm heq]

/-- A class below a loop, whose way up ends where the loop begins, and a vocabulary. -/
def belowCycle : OntologyDocument where
  classes :=
    [{ iri := "Top", parents := ["Loop"] }, { iri := "Loop", parents := ["Top"] },
      { iri := "Middle", parents := ["Top"] }, { iri := "Low", parents := ["Middle"] },
      { iri := CyberOntology.sharedVocabularies ++ "Colour" }]

theorem isCompatible_belowCycle :
    (∀ d ∈ belowCycle.classes, d.ancestors = none) ∧
      (resolve {} belowCycle).isCompatible "Low" "Top" = true ∧
      (resolve {} belowCycle).isCompatible Xsd.string
        (CyberOntology.sharedVocabularies ++ "Colour") = true ∧
      ¬ TransGen (DeclaresOffCycle belowCycle.classes) "Low" "Loop" := by
  have hown : ∀ d ∈ belowCycle.classes, d.ancestors = none := by decide +kernel
  have hwords : ∃ d ∈ belowCycle.classes, d.iri = CyberOntology.sharedVocabularies ++ "Colour" := by
    decide +kernel
  obtain ⟨d, hd, hiri⟩ := hwords
  have hstays : (resolve {} belowCycle).isCompatible "Low" "Loop" = false := by decide +kernel
  have hreaches : (resolve {} belowCycle).isCompatible "Low" "Top" = true := by decide +kernel
  refine ⟨hown, hreaches, ?_, ?_⟩
  · exact (isCompatible_resolve_iff {} belowCycle hown _ _).2
      (.inr (.inr (.inr ⟨rfl, d, hd, hiri, _, List.mem_cons_self, _, rfl⟩)))
  · intro hup
    have htrue := (isCompatible_resolve_iff {} belowCycle hown "Low" "Loop").2 (.inr (.inl hup))
    rw [hstays] at htrue
    cases htrue

end Ontology

end OntologyGuard
