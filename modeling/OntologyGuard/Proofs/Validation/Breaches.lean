import OntologyGuard.Proofs.Validation.Accounts
import OntologyGuard.Proofs.Validation.Observation

namespace OntologyGuard.Validator

/-- The breaches of a subject of a given class, and how each of them is put into words. -/
inductive Breached (ontology : Ontology) (config : ValidationConfig) (graph : DataGraph) (s : Term)
    (definition : ClassDefinition) : Breach → String → Prop where
  | missing {constraints : ClassConstraints} {own : PropertyConstraints} {p : Iri} {min : UInt32}
    (restricted : definition = .restricted constraints) (constrained : constraints.get? p = some own)
    (bound : own.min = some min) (required : 0 < min) (none : valueCount graph s p = 0)
    (notIdentity : config.identityProperty ≠ some p) :
    Breached ontology config graph s definition (.missing p) "data is missing required property"
  | tooFew {constraints : ClassConstraints} {own : PropertyConstraints} {p : Iri} {min : UInt32}
    (restricted : definition = .restricted constraints) (constrained : constraints.get? p = some own)
    (bound : own.min = some min) (some : 0 < valueCount graph s p)
    (few : valueCount graph s p < min.toNat) :
    Breached ontology config graph s definition (.tooFew p)
      ("property has " ++ (valueCount graph s p).repr ++ " values but must have at least "
        ++ min.toNat.repr)
  | tooMany {constraints : ClassConstraints} {own : PropertyConstraints} {p : Iri} {max : UInt32}
    (restricted : definition = .restricted constraints) (constrained : constraints.get? p = some own)
    (bound : own.max = some max) (many : max.toNat < valueCount graph s p) :
    Breached ontology config graph s definition (.tooMany p)
      ("property has " ++ (valueCount graph s p).repr ++ " values but must have at most "
        ++ max.toNat.repr)
  | wrongType {p range : Iri} {o : Term} {type : Option Iri} (notType : p ≠ Rdf.type)
    (value : ⟨s, p, o⟩ ∈ graph.triples) (expected : ExpectedRange ontology definition p range)
    (typed : ∀ t, type = some t ↔ HasType ontology graph o t)
    (unfit : ¬ ∃ t, HasType ontology graph o t ∧ (t = range ∨ range ∈ ontology.ancestorsOf t)) :
    Breached ontology config graph s definition (.wrongType p o)
      ((Violation.wrongType o type range).message (contextFor ontology graph))
  | outsideVocabulary {p type : Iri} {lexical datatype : String} {words : DatatypeConstraints}
    (notType : p ≠ Rdf.type) (value : ⟨s, p, .literal ⟨lexical, some datatype⟩⟩ ∈ graph.triples)
    (typed : HasType ontology graph (.literal ⟨lexical, some datatype⟩) type)
    (notIgnored : type ∉ config.ignoredDatatypes) (outside : ¬ ∃ name, type = Xsd.namespaceIri ++ name)
    (defined : ontology.definitions.get? type = some (.datatype words))
    (unknown : lexical ∉ words.vocabulary.toList) :
    Breached ontology config graph s definition (.outsideVocabulary p ⟨lexical, some datatype⟩)
      ("value \"" ++ lexical ++ "\" not in vocabulary " ++ Text.quotedSet words.vocabulary.toList)

variable {ontology : Ontology} {config : ValidationConfig} {graph : DataGraph} {s : Term}
  {context : Context} {predicates : PredicateMap}

section Checks

theorem nodup_required (constraints : ClassConstraints) : constraints.required.Nodup :=
  (List.filter_sublist.map Prod.fst).nodup constraints.properties.nodup_keys

variable (context) in
theorem accounts_missing {properties : List Iri} (hnodup : properties.Nodup) :
    Accounts (properties.map (Violation.missing.report context)) fun breach message ↦
      ∃ p ∈ properties, breach = .missing p ∧ message = "data is missing required property" := by
  rw [List.map_eq_flatMap]
  refine .flatMap hnodup (fun p ↦ .single (.missing p) rfl rfl) ?_
  rintro p q breach message message' ⟨rfl, -⟩ ⟨heq, -⟩
  exact Breach.missing.inj heq

variable (context) in
theorem accounts_countReports (constraints : ClassConstraints) (p : Iri) (n : Nat) :
    Accounts (countReports context constraints p n) fun breach message ↦
      (∃ own min, constraints.get? p = some own ∧ own.min = some min ∧ n < min.toNat ∧
        breach = .tooFew p ∧ message = (Violation.tooFew n min).message context) ∨
      ∃ own max, constraints.get? p = some own ∧ own.max = some max ∧ max.toNat < n ∧
        breach = .tooMany p ∧ message = (Violation.tooMany n max).message context := by
  unfold countReports
  cases constraints.get? p with
  | none => exact Accounts.nil.congr (by simp)
  | some own =>
    dsimp only
    rw [countViolations, List.map_append]
    refine ((Accounts.optional (.tooFew p) _).append (.optional (.tooMany p) _) ?_).congr ?_
    · rintro _ _ _ ⟨-, -, rfl, -⟩ ⟨-, -, ⟨⟩, -⟩
    · intro breach message
      simp [Option.filter_eq_some_iff, and_assoc]

variable (ontology context) in
theorem accounts_rangeReports (constraints : Option ClassConstraints) (p : Iri) (value : TypedValue) :
    Accounts (rangeReports ontology context constraints p value) fun breach message ↦
      ∃ range, expectedRange? ontology constraints p = some range ∧
        value.2.any (ontology.isCompatible · range) = false ∧ breach = .wrongType p value.1 ∧
        message = (Violation.wrongType value.1 value.2 range).message context := by
  unfold rangeReports
  cases expectedRange? ontology constraints p with
  | none => exact Accounts.nil.congr (by simp)
  | some expected =>
    dsimp only
    split
    next hfits => exact Accounts.nil.congr (by simp [hfits])
    next hunfit =>
      refine (Accounts.single (.wrongType p value.1) rfl rfl).congr fun breach message ↦ ?_
      simp [hunfit, Violation.report]

theorem kind_of_mem_validate {value id : String} {d : Diagnostic}
    (h : d ∈ (({} : Xsd.Checker).validate value id).1) : d.kind ≠ .constraintError := by
  have hreport (fault : Xsd.Checker.Fault) : fault.report.kind ≠ .constraintError := by
    cases fault <;> exact Diagnostic.Kind.noConfusion
  rw [Xsd.Checker.validate_empty] at h
  split at h
  next fault _ =>
    obtain rfl := List.mem_singleton.1 h
    exact hreport fault
  next type _ =>
    split at h
    · cases h
    · obtain rfl := List.mem_singleton.1 h
      exact hreport (.notAccepted value type)

variable (ontology config) in
theorem accounts_checkLiteral (p : Iri) (lexical datatype type : String) :
    Accounts ((checkLiteral ontology config {} (.literal ⟨lexical, some datatype⟩) type).1.map
        fun d ↦ { d with property := some p }) fun breach message ↦
      ∃ words, type ∉ config.ignoredDatatypes ∧ Text.startsWith type Xsd.namespaceIri = false ∧
        ontology.datatypeConstraints? type = some words ∧ lexical ∉ words.vocabulary.toList ∧
        breach = .outsideVocabulary p ⟨lexical, some datatype⟩ ∧
        message = "value \"" ++ lexical ++ "\" not in vocabulary "
          ++ Text.quotedSet words.vocabulary.toList := by
  unfold checkLiteral
  dsimp only
  split
  next hignored =>
    refine Accounts.nil.congr fun breach message ↦ iff_of_false id ?_
    rintro ⟨words, hnot, -⟩
    exact hnot (List.contains_iff_mem.1 hignored)
  next hignored =>
    split
    next hschema =>
      refine (Accounts.of_noErrors fun d hd ↦ ?_).congr fun breach message ↦ iff_of_false id ?_
      · obtain ⟨d', hd', rfl⟩ := List.mem_map.1 hd
        have hkind := kind_of_mem_validate hd'
        exact hkind
      · rintro ⟨words, -, hnot, -⟩
        simp [hnot] at hschema
    next hschema =>
      have hnot : type ∉ config.ignoredDatatypes := fun h ↦ hignored (List.contains_iff_mem.2 h)
      cases hwords : ontology.datatypeConstraints? type with
      | some words =>
        dsimp only
        rw [DatatypeConstraints.validate]
        split
        next hmem =>
          refine Accounts.nil.congr fun breach message ↦ iff_of_false id ?_
          rintro ⟨words', -, -, ⟨⟩, hunknown, -⟩
          exact hunknown (List.contains_iff_mem.1 hmem)
        next hunknown =>
          have hunknown' : lexical ∉ words.vocabulary.toList :=
            fun h ↦ hunknown (List.contains_iff_mem.2 h)
          refine (Accounts.single (.outsideVocabulary p ⟨lexical, some datatype⟩) rfl rfl).congr
            fun breach message ↦ ?_
          simp [hnot, hschema, hunknown']
      | none =>
        refine (Accounts.of_noErrors fun d hd ↦ ?_).congr fun breach message ↦ iff_of_false id ?_
        · obtain rfl := List.mem_singleton.1 hd
          exact Diagnostic.Kind.noConfusion
        · rintro ⟨words, -, -, ⟨⟩, -⟩

variable (ontology config) in
theorem accounts_checkValue (p : Iri) (value : TypedValue) :
    Accounts (checkValue ontology config p {} value).1 fun breach message ↦
      ∃ lexical datatype type words, value = (.literal ⟨lexical, some datatype⟩, some type) ∧
        type ∉ config.ignoredDatatypes ∧ Text.startsWith type Xsd.namespaceIri = false ∧
        ontology.datatypeConstraints? type = some words ∧ lexical ∉ words.vocabulary.toList ∧
        breach = .outsideVocabulary p ⟨lexical, some datatype⟩ ∧
        message = "value \"" ++ lexical ++ "\" not in vocabulary "
          ++ Text.quotedSet words.vocabulary.toList := by
  obtain ⟨term, _ | type⟩ := value
  · exact Accounts.nil.congr (by simp)
  · rcases term with iri | label | ⟨lexical, _ | datatype⟩
    · exact Accounts.nil.congr (by simp)
    · exact Accounts.nil.congr (by simp)
    · exact Accounts.nil.congr (by simp)
    · exact (accounts_checkLiteral ontology config p lexical datatype type).congr (by simp)

theorem accounts_untyped {index : TripleIndex} : Accounts
    ((values predicates).flatMap fun value ↦ untypedReports index context value.2) fun _ _ ↦ False := by
  refine .of_noErrors fun d hd ↦ ?_
  obtain ⟨value, -, hd⟩ := List.mem_flatMap.1 hd
  unfold untypedReports at hd
  split at hd
  · cases hd
  · obtain rfl := List.mem_singleton.1 hd
    exact Diagnostic.Kind.noConfusion

theorem accounts_datatypeAsClass (definition : ClassDefinition) : Accounts
    (if definition.asDatatype?.isSome then [datatypeAsClass] else []) fun _ _ ↦ False := by
  refine .of_noErrors fun d hd ↦ ?_
  split at hd
  · obtain rfl := List.mem_singleton.1 hd
    exact Diagnostic.Kind.noConfusion
  · cases hd

section Numbers

variable (ontology config graph s) (constraints : ClassConstraints)

theorem accounts_required : Accounts
    ((constraints.required.filter fun p ↦ config.identityProperty ≠ some p ∧ valueCount graph s p = 0).map
      (Violation.missing.report context))
    fun breach message ↦ Breached ontology config graph s (.restricted constraints) breach message ∧
      ∃ p, breach = .missing p := by
  refine (accounts_missing context ((nodup_required constraints).filter _)).congr fun breach message ↦ ?_
  simp only [List.mem_filter, mem_required_iff, decide_eq_true_eq]
  constructor
  · rintro ⟨p, ⟨⟨own, min, hown, hmin, hpos⟩, hidentity, hnone⟩, rfl, rfl⟩
    exact ⟨.missing rfl hown hmin hpos hnone hidentity, p, rfl⟩
  · rintro ⟨hbreached, p, rfl⟩
    cases hbreached with
    | missing restricted hown hmin hpos hnone hidentity =>
      cases restricted
      exact ⟨p, ⟨⟨_, _, hown, hmin, hpos⟩, hidentity, hnone⟩, rfl, rfl⟩

variable {graph s} in
theorem accounts_counts (h : graph.index.get? s = some predicates) : Accounts
    ((properties predicates).flatMap fun p ↦ countReports context constraints p (valueCount graph s p))
    fun breach message ↦ Breached ontology config graph s (.restricted constraints) breach message ∧
      ∃ p, breach = .tooFew p ∨ breach = .tooMany p := by
  have hcounts := Accounts.flatMap (nodup_properties predicates)
    (fun p ↦ accounts_countReports context constraints p (valueCount graph s p))
    (by
      rintro p q breach message message' (⟨-, -, -, -, -, rfl, -⟩ | ⟨-, -, -, -, -, rfl, -⟩)
        (⟨-, -, -, -, -, heq, -⟩ | ⟨-, -, -, -, -, heq, -⟩)
      · exact Breach.tooFew.inj heq
      · cases heq
      · cases heq
      · exact Breach.tooMany.inj heq)
  refine hcounts.congr fun breach message ↦ ?_
  simp only [mem_properties_iff h, ← valueCount_pos_iff]
  constructor
  · rintro ⟨p, hsome, ⟨own, min, hown, hmin, hfew, rfl, rfl⟩ | ⟨own, max, hown, hmax, hmany, rfl, rfl⟩⟩
    · exact ⟨.tooFew rfl hown hmin hsome hfew, p, .inl rfl⟩
    · exact ⟨.tooMany rfl hown hmax hmany, p, .inr rfl⟩
  · rintro ⟨hbreached, p, rfl | rfl⟩
    · cases hbreached with
      | tooFew restricted hown hmin hsome hfew =>
        cases restricted
        exact ⟨p, hsome, .inl ⟨_, _, hown, hmin, hfew, rfl, rfl⟩⟩
    · cases hbreached with
      | tooMany restricted hown hmax hmany =>
        cases restricted
        exact ⟨p, Nat.zero_lt_of_lt hmany, .inr ⟨_, _, hown, hmax, hmany, rfl, rfl⟩⟩

end Numbers

theorem Breached.restricted {definition : ClassDefinition} {breach : Breach} {message : String}
    (h : Breached ontology config graph s definition breach message) {p : Iri}
    (hnumber : breach = .missing p ∨ breach = .tooFew p ∨ breach = .tooMany p) :
    ∃ constraints, definition = .restricted constraints := by
  cases h with
  | missing restricted => exact ⟨_, restricted⟩
  | tooFew restricted => exact ⟨_, restricted⟩
  | tooMany restricted => exact ⟨_, restricted⟩
  | wrongType | outsideVocabulary => simp at hnumber

variable (ontology config) in
theorem accounts_numbers (h : graph.index.get? s = some predicates) (definition : ClassDefinition) :
    Accounts ((definition.asRestricted?.map fun constraints ↦
        (constraints.required.filter fun p ↦
            config.identityProperty ≠ some p ∧ valueCount graph s p = 0).map
          (Violation.missing.report (contextFor ontology graph)) ++
        (properties predicates).flatMap fun p ↦
          countReports (contextFor ontology graph) constraints p (valueCount graph s p)).getD [])
      fun breach message ↦ Breached ontology config graph s definition breach message ∧
        ∃ p, breach = .missing p ∨ breach = .tooFew p ∨ breach = .tooMany p := by
  have hnone (hdefinition : ∀ constraints, definition ≠ .restricted constraints) :
      Accounts [] fun breach message ↦ Breached ontology config graph s definition breach message ∧
        ∃ p, breach = .missing p ∨ breach = .tooFew p ∨ breach = .tooMany p := by
    refine Accounts.nil.congr fun breach message ↦ iff_of_false id ?_
    rintro ⟨hbreached, p, hnumber⟩
    obtain ⟨constraints, hrestricted⟩ := hbreached.restricted hnumber
    exact hdefinition constraints hrestricted
  cases definition with
  | restricted constraints =>
    refine ((accounts_required ontology config graph s constraints).append
      (accounts_counts ontology config constraints h) ?_).congr fun breach message ↦ ?_
    · rintro _ _ _ ⟨-, p, rfl⟩ ⟨-, q, heq | heq⟩ <;> cases heq
    · rw [← and_or_left, ← exists_or]
  | datatype words => exact hnone fun _ ↦ ClassDefinition.noConfusion
  | unconstrained => exact hnone fun _ ↦ ClassDefinition.noConfusion

theorem compatible_iff {o : Term} {range : Iri} :
    (typed graph.index (contextFor ontology graph) o).2.any (ontology.isCompatible · range) = true ↔
      ∃ t, HasType ontology graph o t ∧ (t = range ∨ range ∈ ontology.ancestorsOf t) := by
  simp only [typed, Option.any_eq_true, toOption_valueType, Ontology.isCompatible, Bool.or_eq_true,
    decide_eq_true_eq, List.contains_iff_mem]

variable (ontology config) in
theorem accounts_types (h : graph.index.get? s = some predicates) (definition : ClassDefinition) :
    Accounts ((values predicates).flatMap fun value ↦ rangeReports ontology (contextFor ontology graph)
        definition.asRestricted? value.1 (typed graph.index (contextFor ontology graph) value.2))
      fun breach message ↦ Breached ontology config graph s definition breach message ∧
        ∃ p o, breach = .wrongType p o := by
  have hvalues := Accounts.flatMap (nodup_values predicates)
    (fun value ↦ accounts_rangeReports ontology (contextFor ontology graph) definition.asRestricted?
      value.1 (typed graph.index (contextFor ontology graph) value.2))
    (by
      rintro ⟨p, o⟩ ⟨q, o'⟩ breach message message' ⟨-, -, -, rfl, -⟩ ⟨-, -, -, heq, -⟩
      cases heq
      rfl)
  refine hvalues.congr fun breach message ↦ ?_
  simp only [Prod.exists, mem_values_iff h, ← Bool.not_eq_true, compatible_iff, expectedRange?_eq_some_iff]
  constructor
  · rintro ⟨p, o, ⟨hp, ho⟩, range, hexpected, hunfit, rfl, rfl⟩
    exact ⟨.wrongType hp ho hexpected (fun t ↦ toOption_valueType) hunfit, p, o, rfl⟩
  · rintro ⟨hbreached, p, o, rfl⟩
    cases hbreached with
    | @wrongType _ range _ type hp ho hexpected htyped hunfit =>
      obtain rfl : type = (typed graph.index (contextFor ontology graph) o).2 := by
        ext t
        exact (htyped t).trans toOption_valueType.symm
      exact ⟨p, o, ⟨hp, ho⟩, range, hexpected, hunfit, rfl, rfl⟩

variable (ontology config) in
theorem accounts_writing (h : graph.index.get? s = some predicates) (definition : ClassDefinition) :
    Accounts ((values predicates).flatMap fun value ↦
        (checkValue ontology config value.1 {} (typed graph.index (contextFor ontology graph) value.2)).1)
      fun breach message ↦ Breached ontology config graph s definition breach message ∧
        ∃ p literal, breach = .outsideVocabulary p literal := by
  have hvalues := Accounts.flatMap (nodup_values predicates)
    (fun value ↦ accounts_checkValue ontology config value.1
      (typed graph.index (contextFor ontology graph) value.2))
    (by
      rintro ⟨p, o⟩ ⟨q, o'⟩ breach message message' ⟨_, _, _, _, ho, -, -, -, -, rfl, -⟩
        ⟨_, _, _, _, ho', -, -, -, -, heq, -⟩
      have h := congrArg Prod.fst ho
      have h' := congrArg Prod.fst ho'
      dsimp only [typed] at h h'
      cases heq
      rw [h, h'])
  refine hvalues.congr fun breach message ↦ ?_
  simp only [Prod.exists, mem_values_iff h, datatypeConstraints?_eq_some_iff, typed, Prod.mk.injEq,
    toOption_valueType]
  constructor
  · rintro ⟨p, _, ⟨hp, ho⟩, lexical, datatype, type, words, ⟨rfl, htype⟩, hnot, houtside, hdefined, hunknown, rfl, rfl⟩
    have houtside' : ¬ ∃ name, type = Xsd.namespaceIri ++ name := by
      rw [← Text.startsWith_iff, houtside]
      exact Bool.false_ne_true
    exact ⟨.outsideVocabulary hp ho htype hnot houtside' hdefined hunknown, p, _, rfl⟩
  · rintro ⟨hbreached, p, literal, rfl⟩
    cases hbreached with
    | outsideVocabulary hp ho htype hnot houtside hdefined hunknown =>
      rw [← Text.startsWith_iff, Bool.not_eq_true] at houtside
      exact ⟨p, _, ⟨hp, ho⟩, _, _, _, _, ⟨rfl, htype⟩, hnot, houtside, hdefined, hunknown, rfl, rfl⟩

theorem accounts_checkSubject (h : graph.index.get? s = some predicates) (definition : ClassDefinition) :
    Accounts (checkSubject ontology config (contextFor ontology graph) graph.index {} definition
      predicates).1 (Breached ontology config graph s definition) := by
  rw [checkSubject_eq_append h]
  refine ((((accounts_untyped.append (accounts_datatypeAsClass definition) ?_).append
    (accounts_numbers ontology config h definition) ?_).append
    (accounts_types ontology config h definition) ?_).append
    (accounts_writing ontology config h definition) ?_).congr fun breach message ↦ ?_
  · simp
  · simp
  · rintro _ _ _ (hnone | ⟨-, p, rfl | rfl | rfl⟩) ⟨-, q, o, heq⟩
    · exact hnone.elim id id
    all_goals cases heq
  · rintro _ _ _ ((hnone | ⟨-, p, rfl | rfl | rfl⟩) | ⟨-, p, o, rfl⟩) ⟨-, q, literal, heq⟩
    · exact hnone.elim id id
    all_goals cases heq
  · cases breach <;> simp

end Checks

theorem foundIn_eq_map {v : Validator} (h : graph.index.get? s = some predicates) {«class» : Iri}
    {definition : ClassDefinition} (honly : OnlyType graph s (.iri «class»))
    (hdefined : v.ontology.definitions.get? «class» = some definition) :
    v.foundIn graph s =
      ((checkSubject v.ontology v.config (contextFor v.ontology graph) graph.index {} definition
        predicates).1.map fun d ↦ { d with «class» := some «class» }).map fun d ↦
          { d with line := graph.lines.get? s } := by
  have htype : subjectType s predicates = .ok «class» := (subjectType_eq_ok_iff h).2 honly
  have hdefined' : v.ontology.get? «class» = some definition := hdefined
  rw [foundIn, h, Option.map_some, Option.getD_some, validateEntry, validateSubject]
  simp only [htype, hdefined']

/-- The report holds what is found in each subject. In a subject of one known class the constraint errors are
the breaches of the constraints, each of them once, with its property, the class and the line. -/
theorem constraintErrors_eq_breaches (ontology : Ontology) (config : ValidationConfig) (graph : DataGraph)
    (s : Term) («class» : Iri) (definition : ClassDefinition) (honly : OnlyType graph s (.iri «class»))
    (hdefined : ontology.definitions.get? «class» = some definition) :
    let v : Validator := { ontology, config }
    (v.validate graph).1.diagnostics.Perm (graph.index.subjects.keys.flatMap (v.foundIn graph)) ∧
      s ∈ graph.index.subjects.keys ∧
      ∃ breaches : List (Breach × String), (breaches.map Prod.fst).Nodup ∧
        (∀ breach message, (breach, message) ∈ breaches ↔
          Breached ontology config graph s definition breach message) ∧
        (v.foundIn graph s).filter (·.kind = .constraintError) =
          breaches.map fun entry ↦ entry.1.report «class» (graph.lines.get? s) entry.2 := by
  intro v
  obtain ⟨predicates, hget⟩ := exists_get?_of_mem ((honly (.iri «class»)).2 rfl)
  refine ⟨perm_foundIn Xsd.Checker.askedInFull_empty graph, OrderedMap.mem_keys_iff.2 ⟨_, hget⟩, ?_⟩
  rw [foundIn_eq_map hget honly hdefined]
  exact (accounts_checkSubject hget definition).filter_stamped «class» (graph.lines.get? s)

def sawConstraints : ClassConstraints where
  «class» := "Saw"
  properties := .ofList [("id", { min := some 1 }), ("name", { min := some 2 }),
    ("part", { max := some 1, range := some "Blade" })]

def sawOntology : Ontology where
  bindings := [("size", "http://example.org/")]
  definitions := .ofList [("Saw", .restricted sawConstraints),
    ("http://example.org/Size", .datatype ⟨"http://example.org/Size", .ofList ["small", "large"]⟩)]

/-- Everything is wrong here that can be, and one of the parts twice. -/
def brokenSaw : DataGraph where
  triples := [⟨.blank "a", Rdf.type, .iri "Saw"⟩, ⟨.blank "a", "name", .literal ⟨"x", none⟩⟩,
    ⟨.blank "a", "part", .iri "b"⟩, ⟨.blank "a", "part", .iri "c"⟩, ⟨.iri "b", Rdf.type, .iri "Blade"⟩,
    ⟨.blank "a", "size", .literal ⟨"huge", some "size:Size"⟩⟩, ⟨.blank "a", "part", .iri "c"⟩]
  lineNumbers := [⟨.blank "a", 4⟩]

theorem exists_breaches_brokenSaw :
    OnlyType brokenSaw (.blank "a") (.iri "Saw") ∧
      sawOntology.definitions.get? "Saw" = some (.restricted sawConstraints) ∧
      ∃ breaches : List (Breach × String), (breaches.map Prod.fst).Nodup ∧
        (∀ breach message, (breach, message) ∈ breaches ↔
          Breached sawOntology {} brokenSaw (.blank "a") (.restricted sawConstraints) breach message) ∧
        breaches.map (fun entry ↦ entry.1.property) = ["id", "name", "part", "part", "size"] := by
  have honly : OnlyType brokenSaw (.blank "a") (.iri "Saw") := by
    intro o
    simp [brokenSaw, Rdf.type]
  have hdefined : sawOntology.definitions.get? "Saw" = some (.restricted sawConstraints) := by decide
  obtain ⟨-, -, breaches, hnodup, hmem, hfound⟩ := constraintErrors_eq_breaches sawOntology {} brokenSaw
    (.blank "a") "Saw" (.restricted sawConstraints) honly hdefined
  have hproperties : ((({ ontology := sawOntology } : Validator).foundIn brokenSaw (.blank "a")).filter
      (·.kind = .constraintError)).map (·.property) =
        [some "id", some "name", some "part", some "part", some "size"] := by decide +kernel
  refine ⟨honly, hdefined, breaches, hnodup, hmem, ?_⟩
  rw [hfound, List.map_map] at hproperties
  have hsome : (breaches.map fun entry ↦ entry.1.property).map some =
      ["id", "name", "part", "part", "size"].map some := by
    rw [List.map_map]
    exact hproperties
  exact (List.map_injective_iff.2 (Option.some_injective _)) hsome

end OntologyGuard.Validator
