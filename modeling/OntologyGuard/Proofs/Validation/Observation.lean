import OntologyGuard.Proofs.Validation.Locality

namespace OntologyGuard.Validator

variable {ontology : Ontology} {config : ValidationConfig} {graph : DataGraph} {s : Term}
  {context : Context} {index : TripleIndex} {predicates : PredicateMap} {p : Iri} {o : Term}

def properties (predicates : PredicateMap) : List Iri := predicates.keys.filter fun p ↦ p ≠ Rdf.type

def values (predicates : PredicateMap) : List (Iri × Term) :=
  (predicates.entries.filter fun entry ↦ entry.1 ≠ Rdf.type).flatMap fun entry ↦
    entry.2.toList.map fun o ↦ (entry.1, o)

theorem mem_properties_iff (h : graph.index.get? s = some predicates) :
    p ∈ properties predicates ↔ p ≠ Rdf.type ∧ ∃ o, ⟨s, p, o⟩ ∈ graph.triples := by
  rw [properties, List.mem_filter, TripleIndex.mem_predicates h, decide_eq_true_eq, and_comm]

theorem nodup_properties (predicates : PredicateMap) : (properties predicates).Nodup :=
  predicates.nodup_keys.filter _

theorem mem_values : (p, o) ∈ values predicates ↔
    p ≠ Rdf.type ∧ ∃ objects, predicates.get? p = some objects ∧ o ∈ objects := by
  simp only [values, List.mem_flatMap, List.mem_filter, List.mem_map, decide_eq_true_eq]
  constructor
  · rintro ⟨⟨q, objects⟩, ⟨hmem, hq⟩, o', ho, heq⟩
    obtain ⟨rfl, rfl⟩ := Prod.mk.inj heq
    exact ⟨hq, objects, OrderedMap.get?_eq_some_iff.2 hmem, ho⟩
  · rintro ⟨hp, objects, hobjects, ho⟩
    exact ⟨(p, objects), ⟨OrderedMap.get?_eq_some_iff.1 hobjects, hp⟩, o, ho, rfl⟩

theorem mem_values_iff (h : graph.index.get? s = some predicates) :
    (p, o) ∈ values predicates ↔ p ≠ Rdf.type ∧ ⟨s, p, o⟩ ∈ graph.triples := by
  rw [mem_values]
  refine and_congr_right fun _ ↦ ⟨?_, fun ho ↦ ?_⟩
  · rintro ⟨objects, hobjects, ho⟩
    exact (TripleIndex.mem_objects h hobjects).1 ho
  · obtain ⟨objects, hobjects⟩ := OrderedMap.mem_keys_iff.1 ((TripleIndex.mem_predicates h).2 ⟨o, ho⟩)
    exact ⟨objects, hobjects, (TripleIndex.mem_objects h hobjects).2 ho⟩

theorem nodup_values (predicates : PredicateMap) : (values predicates).Nodup := by
  have hkeys : predicates.entries.Pairwise fun entry other ↦ entry.1 ≠ other.1 :=
    List.pairwise_map.1 predicates.nodup_keys
  refine List.nodup_flatMap.2 ⟨fun entry _ ↦ ?_, (hkeys.filter _).imp fun hne ↦ ?_⟩
  · exact entry.2.nodup.map (Prod.mk_right_injective entry.1)
  · simp only [Function.onFun, List.disjoint_left, List.mem_map]
    rintro _ ⟨o, -, rfl⟩ ⟨o', -, heq⟩
    exact hne (congrArg Prod.fst heq).symm

def typed (index : TripleIndex) (context : Context) (o : Term) : TypedValue :=
  (o, (valueType index context o).toOption)

theorem map_fst_observe (index : TripleIndex) (context : Context) (predicates : PredicateMap) :
    (observe index context predicates).map Prod.fst = properties predicates := by
  simp only [observe, properties, OrderedMap.keys, List.map_map, List.filter_map]
  rfl

theorem flatMap_observe {β : Type} (index : TripleIndex) (context : Context) (predicates : PredicateMap)
    (f : Iri → TypedValue → List β) :
    ((observe index context predicates).flatMap fun entry ↦ entry.2.flatMap (f entry.1)) =
      (values predicates).flatMap fun value ↦ f value.1 (typed index context value.2) := by
  simp only [observe, values, List.flatMap_map, List.flatMap_assoc]
  rfl

section Checks

def untypedReports (index : TripleIndex) (context : Context) (o : Term) : List Diagnostic :=
  match valueType index context o with
  | .ok _ => []
  | .error fault => [fault.report context]

def countReports (context : Context) (constraints : ClassConstraints) (p : Iri) (n : Nat) :
    List Diagnostic :=
  match constraints.get? p with
  | none => []
  | some own => (countViolations own n).map (Violation.report context p)

def rangeReports (ontology : Ontology) (context : Context) (constraints : Option ClassConstraints) (p : Iri)
    (value : TypedValue) : List Diagnostic :=
  match expectedRange? ontology constraints p with
  | none => []
  | some expected =>
    if value.2.any (ontology.isCompatible · expected) then []
    else [(Violation.wrongType value.1 value.2 expected).report context p]

theorem untypedValues_eq_flatMap : untypedValues index context predicates =
    (values predicates).flatMap fun value ↦ untypedReports index context value.2 := by
  simp only [untypedValues, values, List.flatMap_assoc, List.flatMap_map]
  rfl

theorem missing_eq_filter (h : graph.index.get? s = some predicates) {constraints : ClassConstraints} :
    missing config constraints (observe graph.index context predicates) =
      constraints.required.filter fun p ↦
        config.identityProperty ≠ some p ∧ valueCount graph s p = 0 := by
  apply List.filter_congr
  intro p _
  have hobserved : ((observe graph.index context predicates).map Prod.fst).contains p = true ↔
      0 < valueCount graph s p := by
    rw [map_fst_observe, List.contains_iff_mem, mem_properties_iff h, valueCount_pos_iff]
  rw [Bool.eq_iff_iff, Bool.and_eq_true, Bool.not_eq_true', decide_eq_true_eq, decide_eq_true_eq,
    ← Bool.not_eq_true, hobserved, Nat.not_lt, Nat.le_zero]

theorem checkCardinality_eq_append (h : graph.index.get? s = some predicates)
    {constraints : ClassConstraints} :
    checkCardinality config context constraints (observe graph.index context predicates) =
      (constraints.required.filter fun p ↦
          config.identityProperty ≠ some p ∧ valueCount graph s p = 0).map
        (Violation.missing.report context) ++
      (properties predicates).flatMap fun p ↦ countReports context constraints p (valueCount graph s p) := by
  rw [checkCardinality, missing_eq_filter h, ← map_fst_observe graph.index context, List.flatMap_map]
  congr 1
  apply List.flatMap_congr
  rintro ⟨p, values⟩ hmem
  have hcount := length_of_mem_observe h hmem
  dsimp only [countReports]
  cases constraints.get? p with
  | none => rfl
  | some own => exact congrArg (fun n ↦ (countViolations own n).map (Violation.report context p)) hcount

theorem checkRanges_eq_flatMap {constraints : Option ClassConstraints} :
    checkRanges ontology context constraints (observe index context predicates) =
      (values predicates).flatMap fun value ↦
        rangeReports ontology context constraints value.1 (typed index context value.2) := by
  rw [← flatMap_observe, checkRanges]
  apply List.flatMap_congr
  rintro ⟨p, values⟩ -
  dsimp only
  induction values with
  | nil => cases expectedRange? ontology constraints p <;> rfl
  | cons value rest ih =>
    rw [List.flatMap_cons, ← ih]
    unfold rangeReports
    cases expectedRange? ontology constraints p with
    | none => rfl
    | some expected =>
      dsimp only
      rw [List.filter_cons]
      cases value.2.any (ontology.isCompatible · expected) <;> rfl

theorem literals_eq_flatMap :
    (collect (checkValues ontology config) {} (observe index context predicates)).1 =
      (values predicates).flatMap fun value ↦
        (checkValue ontology config value.1 {} (typed index context value.2)).1 := by
  rw [← flatMap_observe index context predicates fun p value ↦ (checkValue ontology config p {} value).1,
    (collect_eq_flatMap (fun entry _ ↦ historyFree_checkValues ontology config entry)
      Xsd.Checker.askedInFull_empty).1]
  apply List.flatMap_congr
  intro entry _
  rw [checkValues_eq_collect, (collect_eq_flatMap
    (fun value _ ↦ historyFree_checkValue ontology config entry.1 value) Xsd.Checker.askedInFull_empty).1]

/-- What a new checker finds in a subject of a known class, at its properties and at its values. -/
theorem checkSubject_eq_append (h : graph.index.get? s = some predicates) (definition : ClassDefinition) :
    (checkSubject ontology config context graph.index {} definition predicates).1 =
      ((values predicates).flatMap fun value ↦ untypedReports graph.index context value.2) ++
      (if definition.asDatatype?.isSome then [datatypeAsClass] else []) ++
      ((definition.asRestricted?.map fun constraints ↦
        (constraints.required.filter fun p ↦
            config.identityProperty ≠ some p ∧ valueCount graph s p = 0).map
          (Violation.missing.report context) ++
        (properties predicates).flatMap fun p ↦
          countReports context constraints p (valueCount graph s p)).getD []) ++
      ((values predicates).flatMap fun value ↦ rangeReports ontology context definition.asRestricted? value.1
        (typed graph.index context value.2)) ++
      (values predicates).flatMap fun value ↦
        (checkValue ontology config value.1 {} (typed graph.index context value.2)).1 := by
  simp only [checkSubject, untypedValues_eq_flatMap, checkCardinality_eq_append h, checkRanges_eq_flatMap,
    literals_eq_flatMap]

end Checks

def foundIn (v : Validator) (graph : DataGraph) (s : Term) : List Diagnostic :=
  ((graph.index.get? s).map fun predicates ↦ (validateEntry v graph {} (s, predicates)).1).getD []

theorem perm_foundIn {v : Validator} (hchecker : v.checker.AskedInFull) (graph : DataGraph) :
    (v.validate graph).1.diagnostics.Perm (graph.index.subjects.keys.flatMap (v.foundIn graph)) := by
  refine (perm_findings hchecker graph).trans (.of_eq ?_)
  rw [findings, OrderedMap.keys, List.flatMap_map]
  apply List.flatMap_congr
  intro subject hsubject
  have hget : graph.index.get? subject.1 = some subject.2 := OrderedMap.get?_eq_some_iff.2 hsubject
  rw [foundIn, hget]
  rfl

end OntologyGuard.Validator
