import OntologyGuard.Proofs.Validation.Conformance
import OntologyGuard.Proofs.Xsd.Checker

namespace OntologyGuard.Validator

section Collect

variable {σ α : Type} {step : σ → α → List Diagnostic × σ} {I : σ → Prop}
  {Accepted : α → Prop}

/-- Steps that keep an invariant and under it find nothing with accepted items find nothing together
when all items are accepted. -/
theorem collect_eq_nil_iff {items : List α}
    (hstep : ∀ state item, item ∈ items → I state →
      ((step state item).1 = [] ↔ Accepted item) ∧ I (step state item).2)
    {state : σ} (h : I state) :
    ((collect step state items).1 = [] ↔ ∀ item ∈ items, Accepted item) ∧
      I (collect step state items).2 := by
  induction items generalizing state with
  | nil => exact ⟨by simp [collect], h⟩
  | cons item rest ih =>
    obtain ⟨hitem, hinv⟩ := hstep state item List.mem_cons_self h
    obtain ⟨hrest, hlast⟩ := ih (fun state item hmem ↦ hstep state item (.tail _ hmem)) hinv
    refine ⟨?_, hlast⟩
    rw [List.forall_mem_cons, ← hitem, ← hrest]
    exact List.append_eq_nil_iff

end Collect

variable {ontology : Ontology} {config : ValidationConfig} {graph : DataGraph} {s : Term}
  {predicates : PredicateMap}

section Observed

theorem mem_observe {context : Context} {index : TripleIndex} {p : Iri} {values : List TypedValue} :
    (p, values) ∈ observe index context predicates ↔ p ≠ Rdf.type ∧
      ∃ objects, predicates.get? p = some objects ∧
        values = objects.toList.map fun o ↦ (o, (valueType index context o).toOption) := by
  simp only [observe, List.mem_map, List.mem_filter, decide_eq_true_eq]
  constructor
  · rintro ⟨⟨q, objects⟩, ⟨hmem, hq⟩, heq⟩
    obtain ⟨rfl, rfl⟩ := Prod.mk.inj heq
    exact ⟨hq, objects, OrderedMap.get?_eq_some_iff.2 hmem, rfl⟩
  · rintro ⟨hp, objects, hget, rfl⟩
    exact ⟨(p, objects), ⟨OrderedMap.get?_eq_some_iff.1 hget, hp⟩, rfl⟩

theorem valueCount_of_get? (h : graph.index.get? s = some predicates) {p : Iri}
    (hp : p ≠ Rdf.type) {objects : ObjectSet} (hobjects : predicates.get? p = some objects) :
    valueCount graph s p = objects.toList.length := by
  rw [valueCount, if_neg hp, ← List.toFinset_card_of_nodup objects.nodup]
  congr 1
  ext o
  rw [List.mem_toFinset, List.mem_toFinset, TripleIndex.mem_objectsOf, ← DistinctList.mem_def]
  exact (TripleIndex.mem_objects h hobjects).symm

theorem length_of_mem_observe (h : graph.index.get? s = some predicates) {context : Context}
    {p : Iri} {values : List TypedValue}
    (hmem : (p, values) ∈ observe graph.index context predicates) :
    values.length = valueCount graph s p := by
  obtain ⟨hp, objects, hobjects, rfl⟩ := mem_observe.1 hmem
  rw [List.length_map, valueCount_of_get? h hp hobjects]

theorem valueCount_pos_iff {p : Iri} :
    0 < valueCount graph s p ↔ p ≠ Rdf.type ∧ ∃ o, ⟨s, p, o⟩ ∈ graph.triples := by
  unfold valueCount
  split
  next hp => simp [hp]
  next hp =>
    simp only [Finset.card_pos, Finset.Nonempty, List.mem_toFinset, TripleIndex.mem_objectsOf, hp,
      ne_eq, not_false_eq_true, true_and]

theorem exists_mem_observe_iff (h : graph.index.get? s = some predicates) (context : Context)
    {p : Iri} : (∃ values, (p, values) ∈ observe graph.index context predicates) ↔
      0 < valueCount graph s p := by
  rw [valueCount_pos_iff, ← TripleIndex.mem_predicates h, OrderedMap.mem_keys_iff]
  simp only [mem_observe]
  constructor
  · rintro ⟨_, hp, objects, hobjects, -⟩
    exact ⟨hp, objects, hobjects⟩
  · rintro ⟨hp, objects, hobjects⟩
    exact ⟨_, hp, objects, hobjects, rfl⟩

theorem forall_objects_iff (h : graph.index.get? s = some predicates) {P : Iri → Term → Prop} :
    (∀ p, p ≠ Rdf.type → ∀ objects, predicates.get? p = some objects → ∀ o ∈ objects.toList, P p o) ↔
      ∀ p o, p ≠ Rdf.type → ⟨s, p, o⟩ ∈ graph.triples → P p o := by
  constructor
  · intro hall p o hp ho
    obtain ⟨objects, hobjects⟩ := OrderedMap.mem_keys_iff.1
      ((TripleIndex.mem_predicates h).2 ⟨o, ho⟩)
    exact hall p hp objects hobjects o ((TripleIndex.mem_objects h hobjects).2 ho)
  · intro hall p hp objects hobjects o ho
    exact hall p o hp ((TripleIndex.mem_objects h hobjects).1 ho)

theorem forall_observed_iff (h : graph.index.get? s = some predicates) {context : Context}
    {P : Iri → Term → Option Iri → Prop} :
    (∀ entry ∈ observe graph.index context predicates, ∀ value ∈ entry.2,
        P entry.1 value.1 value.2) ↔
      ∀ p o, p ≠ Rdf.type → ⟨s, p, o⟩ ∈ graph.triples →
        P p o (valueType graph.index context o).toOption := by
  rw [← forall_objects_iff h]
  constructor
  · intro hall p hp objects hobjects o ho
    exact hall (p, _) (mem_observe.2 ⟨hp, objects, hobjects, rfl⟩) _ (List.mem_map_of_mem ho)
  · rintro hall ⟨p, values⟩ hmem value hvalue
    obtain ⟨hp, objects, hobjects, rfl⟩ := mem_observe.1 hmem
    obtain ⟨o, ho, rfl⟩ := List.mem_map.1 hvalue
    exact hall p hp objects hobjects o ho

end Observed

section Checks

theorem untypedValues_eq_nil_iff (h : graph.index.get? s = some predicates) :
    untypedValues graph.index (contextFor ontology graph) predicates = [] ↔
      ∀ p o, p ≠ Rdf.type → ⟨s, p, o⟩ ∈ graph.triples → ∃ type, HasType ontology graph o type := by
  rw [untypedValues, List.flatMap_eq_nil_iff, ← forall_objects_iff h]
  constructor
  · intro hall p hp objects hobjects o ho
    have hmem : (p, objects) ∈ predicates.entries.filter fun entry ↦ entry.1 ≠ Rdf.type :=
      List.mem_filter.2 ⟨OrderedMap.get?_eq_some_iff.1 hobjects, decide_eq_true hp⟩
    have hnil := List.flatMap_eq_nil_iff.1 (hall (p, objects) hmem) o ho
    cases htype : valueType graph.index (contextFor ontology graph) o with
    | ok type => exact ⟨type, valueType_eq_ok_iff.1 htype⟩
    | error fault => simp [htype] at hnil
  · rintro hall ⟨p, objects⟩ hentry
    obtain ⟨hmem, hp⟩ := List.mem_filter.1 hentry
    have htyped := hall p (of_decide_eq_true hp) objects (OrderedMap.get?_eq_some_iff.2 hmem)
    refine List.flatMap_eq_nil_iff.2 fun o ho ↦ ?_
    obtain ⟨type, htype⟩ := htyped o ho
    simp only [valueType_eq_ok_iff.2 htype]

theorem mem_required_iff {constraints : ClassConstraints} {p : Iri} :
    p ∈ constraints.required ↔
      ∃ own m, constraints.get? p = some own ∧ own.min = some m ∧ 0 < m := by
  simp only [ClassConstraints.required, List.mem_map, List.mem_filter, Option.any_eq_true,
    decide_eq_true_eq]
  constructor
  · rintro ⟨⟨q, own⟩, ⟨hmem, m, hmin, hpos⟩, rfl⟩
    exact ⟨own, m, OrderedMap.get?_eq_some_iff.2 hmem, hmin, hpos⟩
  · rintro ⟨own, m, hget, hmin, hpos⟩
    exact ⟨(p, own), ⟨OrderedMap.get?_eq_some_iff.1 hget, m, hmin, hpos⟩, rfl⟩

theorem missing_eq_nil_iff (h : graph.index.get? s = some predicates) {context : Context}
    {constraints : ClassConstraints} :
    missing config constraints (observe graph.index context predicates) = [] ↔
      ∀ p ∈ constraints.required, config.identityProperty = some p ∨ 0 < valueCount graph s p := by
  have hobserved (p : Iri) : ((observe graph.index context predicates).map Prod.fst).contains p =
      true ↔ 0 < valueCount graph s p := by
    rw [← exists_mem_observe_iff h context]
    simp
  simp only [missing, List.filter_eq_nil_iff, Bool.and_eq_true, decide_eq_true_eq,
    Bool.not_eq_true', not_and, ← hobserved]
  refine forall_congr' fun p ↦ forall_congr' fun _ ↦ ?_
  rw [Bool.not_eq_false, ← or_iff_not_imp_left]

theorem countViolations_eq_nil_iff {own : PropertyConstraints} {n : Nat} :
    countViolations own n = [] ↔
      (∀ m, own.min = some m → m.toNat ≤ n) ∧ ∀ m, own.max = some m → n ≤ m.toNat := by
  unfold countViolations
  cases own.min <;> cases own.max <;> simp [Option.filter]

theorem countAllowed_iff {p : Iri} {own : PropertyConstraints} {n : Nat} :
    CountAllowed config p own n ↔ (0 < n → countViolations own n = []) ∧
      ((∃ m, own.min = some m ∧ 0 < m) → config.identityProperty = some p ∨ 0 < n) := by
  constructor
  · intro h
    constructor
    · intro hpos
      refine countViolations_eq_nil_iff.2 ⟨fun m hm ↦ ?_, h.max⟩
      rcases h.min m hm with hle | ⟨hzero, -⟩
      · exact hle
      · omega
    · rintro ⟨m, hm, hm0⟩
      have hm0' : 0 < m.toNat := UInt32.lt_iff_toNat_lt.1 hm0
      rcases h.min m hm with hle | ⟨-, hidentity⟩
      · right
        omega
      · exact .inl hidentity
  · rintro ⟨hcount, hmissing⟩
    rcases Nat.eq_zero_or_pos n with rfl | hpos
    · refine ⟨fun m _ ↦ Nat.zero_le _, fun m hm ↦ ?_⟩
      by_cases hm0 : 0 < m
      · exact .inr ⟨rfl, (hmissing ⟨m, hm, hm0⟩).resolve_right (Nat.lt_irrefl 0)⟩
      · exact .inl (UInt32.le_iff_toNat_le.1 (UInt32.not_lt.1 hm0))
    · obtain ⟨hmin, hmax⟩ := countViolations_eq_nil_iff.1 (hcount hpos)
      exact ⟨hmax, fun m hm ↦ .inl (hmin m hm)⟩

theorem checkCardinality_eq_nil_iff (h : graph.index.get? s = some predicates) {context : Context}
    {constraints : ClassConstraints} :
    checkCardinality config context constraints (observe graph.index context predicates) = [] ↔
      ∀ p own, constraints.get? p = some own → CountAllowed config p own (valueCount graph s p) := by
  rw [checkCardinality, List.append_eq_nil_iff, List.map_eq_nil_iff, missing_eq_nil_iff h,
    List.flatMap_eq_nil_iff]
  simp only [countAllowed_iff]
  constructor
  · rintro ⟨hmissing, hcounts⟩ p own hown
    constructor
    · intro hpos
      obtain ⟨values, hmem⟩ := (exists_mem_observe_iff h context).2 hpos
      have hnil := hcounts (p, values) hmem
      simpa only [hown, List.map_eq_nil_iff, length_of_mem_observe h hmem] using hnil
    · rintro ⟨m, hm, hm0⟩
      exact hmissing p (mem_required_iff.2 ⟨own, m, hown, hm, hm0⟩)
  · intro hall
    constructor
    · intro p hp
      obtain ⟨own, m, hown, hm, hm0⟩ := mem_required_iff.1 hp
      exact (hall p own hown).2 ⟨m, hm, hm0⟩
    · rintro ⟨p, values⟩ hmem
      have hpos := (exists_mem_observe_iff h context).1 ⟨values, hmem⟩
      cases hown : constraints.get? p with
      | none => rfl
      | some own =>
        simp only [List.map_eq_nil_iff, length_of_mem_observe h hmem]
        exact (hall p own hown).1 hpos

theorem expectedRange?_eq_some_iff {definition : ClassDefinition} {p range : Iri} :
    expectedRange? ontology definition.asRestricted? p = some range ↔
      ExpectedRange ontology definition p range := by
  have hown (r : Iri) : (definition.asRestricted?.bind (·.get? p)).bind (·.range) = some r ↔
      OwnRange definition p r := by
    cases definition <;> simp [ClassDefinition.asRestricted?, OwnRange, Option.bind_eq_some_iff]
  have hdeclared : ontology.propertyRange? p = some range ↔
      ontology.propertyRanges.get? p = some (some range) := by
    rw [Ontology.propertyRange?, Option.bind_eq_some_iff]
    simp
  rw [expectedRange?, Option.or_eq_some_iff, ExpectedRange, hdeclared, hown,
    Option.eq_none_iff_forall_ne_some]
  simp only [ne_eq, hown, not_exists]

theorem datatypeConstraints?_eq_some_iff {type : Iri} {words : DatatypeConstraints} :
    ontology.datatypeConstraints? type = some words ↔
      ontology.definitions.get? type = some (.datatype words) := by
  rw [Ontology.datatypeConstraints?, Ontology.get?]
  cases ontology.definitions.get? type with
  | none => simp
  | some definition => cases definition <;> simp [ClassDefinition.asDatatype?]

theorem checkRanges_eq_nil_iff (h : graph.index.get? s = some predicates)
    {definition : ClassDefinition} :
    checkRanges ontology (contextFor ontology graph) definition.asRestricted?
        (observe graph.index (contextFor ontology graph) predicates) = [] ↔
      ∀ p o range, p ≠ Rdf.type → ⟨s, p, o⟩ ∈ graph.triples →
        ExpectedRange ontology definition p range →
        ∃ type, HasType ontology graph o type ∧
          (type = range ∨ range ∈ ontology.ancestorsOf type) := by
  rw [checkRanges, List.flatMap_eq_nil_iff]
  refine Iff.trans (b := ∀ entry ∈ observe graph.index (contextFor ontology graph) predicates,
    ∀ value ∈ entry.2, ∀ range, ExpectedRange ontology definition entry.1 range →
      value.2.any (ontology.isCompatible · range) = true)
    (forall_congr' fun entry ↦ forall_congr' fun _ ↦ ?_) ?_
  · simp only [← expectedRange?_eq_some_iff]
    cases expectedRange? ontology definition.asRestricted? entry.1 with
    | none => simp
    | some expected => simp [List.filter_eq_nil_iff]
  · refine (forall_observed_iff h (P := fun p _ type ↦ ∀ range,
      ExpectedRange ontology definition p range →
        type.any (ontology.isCompatible · range) = true)).trans ?_
    simp only [Option.any_eq_true, toOption_valueType, Ontology.isCompatible, Bool.or_eq_true,
      decide_eq_true_eq, List.contains_iff_mem]
    grind

section Literals

variable {lexical : String} {type : Iri}

theorem wellWritten_iff_of_startsWith (hnot : type ∉ config.ignoredDatatypes)
    (h : Text.startsWith type Xsd.namespaceIri = true) :
    WellWritten ontology config lexical type ↔
      ∃ xsd : Xsd.Datatype, type = Xsd.namespaceIri ++ xsd.localName ∧ xsd.accepts lexical = true := by
  constructor
  · intro hwell
    cases hwell with
    | ignored hignored => exact absurd hignored hnot
    | schema xsd haccepts => exact ⟨xsd, rfl, haccepts⟩
    | vocabulary outside => exact absurd (Text.startsWith_iff.1 h) outside
  · rintro ⟨xsd, rfl, haccepts⟩
    exact .schema xsd haccepts

theorem wellWritten_iff_of_not_startsWith (hnot : type ∉ config.ignoredDatatypes)
    (h : ¬ Text.startsWith type Xsd.namespaceIri = true) :
    WellWritten ontology config lexical type ↔
      ∃ words, ontology.datatypeConstraints? type = some words ∧
        lexical ∈ words.vocabulary.toList := by
  simp only [datatypeConstraints?_eq_some_iff]
  constructor
  · intro hwell
    cases hwell with
    | ignored hignored => exact absurd hignored hnot
    | schema xsd => exact absurd (Text.startsWith_append _ _) h
    | vocabulary _ hdefined hmem => exact ⟨_, hdefined, hmem⟩
  · rintro ⟨words, hdefined, hmem⟩
    exact .vocabulary (fun houtside ↦ h (Text.startsWith_iff.2 houtside)) hdefined hmem

theorem vocabulary_validate_eq_nil_iff {words : DatatypeConstraints} :
    words.validate lexical = [] ↔ lexical ∈ words.vocabulary.toList := by
  rw [DatatypeConstraints.validate, ← List.contains_iff_mem]
  exact ite_eq_left_iff.trans (by simp [WordSet.contains])

variable (ontology config) in
theorem checkLiteral_spec {checker : Xsd.Checker} (hsound : checker.Sound) (lexical : String)
    (datatype type : Iri) :
    ((checkLiteral ontology config checker (.literal ⟨lexical, some datatype⟩) type).1 = [] ↔
      WellWritten ontology config lexical type) ∧
      (checkLiteral ontology config checker (.literal ⟨lexical, some datatype⟩) type).2.Sound := by
  unfold checkLiteral
  dsimp only
  split
  next hignored =>
    exact ⟨iff_of_true rfl (.ignored (List.contains_iff_mem.1 hignored)), hsound⟩
  next hignored =>
    have hnot : type ∉ config.ignoredDatatypes := fun h ↦ hignored (List.contains_iff_mem.2 h)
    split
    next hschema =>
      refine ⟨?_, hsound.validate lexical type⟩
      rw [hsound.validate_eq_nil_iff, wellWritten_iff_of_startsWith hnot hschema]
      simp only [Xsd.Checker.find_eq_ok_iff_of_startsWith hschema]
    next hschema =>
      rw [wellWritten_iff_of_not_startsWith hnot hschema]
      split
      next words hwords =>
        refine ⟨?_, hsound⟩
        simp only [hwords, Option.some.injEq, exists_eq_left', vocabulary_validate_eq_nil_iff]
      next hnone => exact ⟨by simp [hnone], hsound⟩

end Literals

/-- A literal with a datatype is written as its type demands; other values may be anything. -/
def ValueAllowed (ontology : Ontology) (config : ValidationConfig) (value : TypedValue) : Prop :=
  ∀ lexical datatype type, value.1 = .literal ⟨lexical, some datatype⟩ → value.2 = some type →
    WellWritten ontology config lexical type

variable (ontology config) in
theorem checkValues_spec {checker : Xsd.Checker} (hsound : checker.Sound)
    (entry : Iri × List TypedValue) :
    ((checkValues ontology config checker entry).1 = [] ↔
      ∀ value ∈ entry.2, ValueAllowed ontology config value) ∧
      (checkValues ontology config checker entry).2.Sound := by
  refine collect_eq_nil_iff (I := Xsd.Checker.Sound) (fun checker value _ hsound ↦ ?_) hsound
  obtain ⟨term, type⟩ := value
  cases type with
  | none => exact ⟨iff_of_true rfl (by rintro lexical datatype type - ⟨⟩), hsound⟩
  | some type =>
    rw [List.map_eq_nil_iff]
    rcases term with iri | label | ⟨lexical, _ | datatype⟩
    · exact ⟨iff_of_true rfl (by rintro lexical datatype type ⟨⟩), hsound⟩
    · exact ⟨iff_of_true rfl (by rintro lexical datatype type ⟨⟩), hsound⟩
    · exact ⟨iff_of_true rfl (by rintro lexical datatype type ⟨⟩), hsound⟩
    · obtain ⟨hnil, hnext⟩ := checkLiteral_spec ontology config hsound lexical datatype type
      refine ⟨hnil.trans ⟨fun h ↦ ?_, fun h ↦ h _ _ _ rfl rfl⟩, hnext⟩
      rintro _ _ _ ⟨⟩ ⟨⟩
      exact h

theorem datatypeReport_eq_nil_iff {definition : ClassDefinition} :
    (if definition.asDatatype?.isSome then [datatypeAsClass] else []) = [] ↔
      ∀ words, definition ≠ .datatype words := by
  cases definition <;> simp [ClassDefinition.asDatatype?]

theorem cardinalityReports_eq_nil_iff (h : graph.index.get? s = some predicates)
    {context : Context} {definition : ClassDefinition} :
    ((definition.asRestricted?.map fun own ↦ checkCardinality config context own
        (observe graph.index context predicates)).getD []) = [] ↔
      ∀ constraints p own, definition = .restricted constraints →
        constraints.get? p = some own → CountAllowed config p own (valueCount graph s p) := by
  cases definition with
  | restricted constraints =>
    refine (checkCardinality_eq_nil_iff h).trans ⟨?_, fun hall p own ↦ hall constraints p own rfl⟩
    rintro hall _ p own ⟨⟩ hown
    exact hall p own hown
  | _ => exact iff_of_true rfl (by rintro constraints p own ⟨⟩)

theorem forall_valueAllowed_iff (h : graph.index.get? s = some predicates) :
    (∀ entry ∈ observe graph.index (contextFor ontology graph) predicates, ∀ value ∈ entry.2,
        ValueAllowed ontology config value) ↔
      ∀ p lexical datatype type, p ≠ Rdf.type →
        ⟨s, p, .literal ⟨lexical, some datatype⟩⟩ ∈ graph.triples →
        HasType ontology graph (.literal ⟨lexical, some datatype⟩) type →
        WellWritten ontology config lexical type := by
  refine (forall_observed_iff h (P := fun _ o type ↦ ValueAllowed ontology config (o, type))).trans ?_
  simp only [ValueAllowed, toOption_valueType]
  constructor
  · intro hall p lexical datatype type hp ho htype
    exact hall p _ hp ho lexical datatype type rfl htype
  · rintro hall p _ hp ho lexical datatype type rfl htype
    exact hall p lexical datatype type hp ho htype

end Checks

end OntologyGuard.Validator
