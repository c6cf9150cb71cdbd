import OntologyGuard.Proofs.Validation.Checks

namespace OntologyGuard.Validator

variable {ontology : Ontology} {config : ValidationConfig} {graph : DataGraph} {s : Term}
  {predicates : PredicateMap}

variable (ontology config) in
theorem checkSubject_spec (h : graph.index.get? s = some predicates) {checker : Xsd.Checker}
    (hsound : checker.Sound) {«class» : Iri} {definition : ClassDefinition}
    (honly : OnlyType graph s (.iri «class»))
    (hdefined : ontology.definitions.get? «class» = some definition) :
    ((checkSubject ontology config (contextFor ontology graph) graph.index checker definition
        predicates).1 = [] ↔ Conforms ontology config graph s «class» definition) ∧
      (checkSubject ontology config (contextFor ontology graph) graph.index checker definition
        predicates).2.Sound := by
  obtain ⟨hvalues, hnext⟩ := collect_eq_nil_iff (I := Xsd.Checker.Sound)
    (fun _ entry (_ : entry ∈ observe graph.index (contextFor ontology graph) predicates) hsound ↦
      checkValues_spec ontology config hsound entry) hsound
  refine ⟨?_, hnext⟩
  simp only [checkSubject, List.append_eq_nil_iff]
  rw [untypedValues_eq_nil_iff h, datatypeReport_eq_nil_iff, cardinalityReports_eq_nil_iff h,
    checkRanges_eq_nil_iff h, hvalues, forall_valueAllowed_iff h]
  constructor
  · rintro ⟨⟨⟨⟨htyped, hdatatype⟩, hcounts⟩, hranges⟩, hliterals⟩
    exact ⟨honly, hdefined, hdatatype, htyped, hcounts, hranges, hliterals⟩
  · intro hc
    exact ⟨⟨⟨⟨hc.typed, hc.notDatatype⟩, hc.counts⟩, hc.ranges⟩, hc.literals⟩

variable (ontology config) in
theorem validateSubject_spec (h : graph.index.get? s = some predicates) {checker : Xsd.Checker}
    (hsound : checker.Sound) :
    ((validateSubject ontology config (contextFor ontology graph) graph.index checker
        (s, predicates)).1 = [] ↔
      ∃ «class» definition, Conforms ontology config graph s «class» definition) ∧
      (validateSubject ontology config (contextFor ontology graph) graph.index checker
        (s, predicates)).2.Sound := by
  unfold validateSubject
  dsimp only
  cases htype : subjectType s predicates with
  | error fault =>
    refine ⟨iff_of_false (List.cons_ne_nil _ _) ?_, hsound⟩
    rintro ⟨«class», definition, hconforms⟩
    cases htype.symm.trans ((subjectType_eq_ok_iff h).2 hconforms.only)
  | ok «class» =>
    have honly := (subjectType_eq_ok_iff h).1 htype
    have hunique : ∀ {other definition}, Conforms ontology config graph s other definition →
        other = «class» := by
      intro other definition hconforms
      exact Term.iri.inj ((honly _).1 ((hconforms.only _).2 rfl))
    dsimp only [Ontology.get?]
    cases hdefined : ontology.definitions.get? «class» with
    | none =>
      refine ⟨iff_of_false (List.cons_ne_nil _ _) ?_, hsound⟩
      rintro ⟨other, definition, hconforms⟩
      cases hdefined.symm.trans (hunique hconforms ▸ hconforms.defined)
    | some definition =>
      obtain ⟨hnil, hnext⟩ := checkSubject_spec ontology config h hsound honly hdefined
      refine ⟨?_, hnext⟩
      rw [List.map_eq_nil_iff, hnil]
      refine ⟨fun hconforms ↦ ⟨«class», definition, hconforms⟩, ?_⟩
      rintro ⟨other, definition', hconforms⟩
      obtain rfl := hunique hconforms
      obtain rfl := Option.some.inj (hdefined.symm.trans hconforms.defined)
      exact hconforms

theorem sortByLine_eq_nil_iff {ds : List Diagnostic} : Diagnostic.sortByLine ds = [] ↔ ds = [] := by
  rw [← List.length_eq_zero_iff, Diagnostic.sortByLine, List.length_mergeSort,
    List.length_eq_zero_iff]

def validateEntry (v : Validator) (graph : DataGraph) (checker : Xsd.Checker)
    (subject : Term × PredicateMap) : List Diagnostic × Xsd.Checker :=
  let (found, checker) :=
    validateSubject v.ontology v.config (contextFor v.ontology graph) graph.index checker subject
  (found.map fun d ↦ { d with line := graph.lines.get? subject.1 }, checker)

theorem validateEntry_spec (v : Validator) (graph : DataGraph) {checker : Xsd.Checker} (hsound : checker.Sound)
    {subject : Term × PredicateMap} (hmem : subject ∈ graph.index.subjects.entries) :
    ((validateEntry v graph checker subject).1 = [] ↔
      ∃ «class» definition, Conforms v.ontology v.config graph subject.1 «class» definition) ∧
      (validateEntry v graph checker subject).2.Sound := by
  obtain ⟨hnil, hnext⟩ := validateSubject_spec v.ontology v.config
    (OrderedMap.get?_eq_some_iff.2 hmem) hsound
  exact ⟨List.map_eq_nil_iff.trans hnil, hnext⟩

theorem validate_spec {v : Validator} (hsound : v.checker.Sound) (graph : DataGraph) :
    ((v.validate graph).1.diagnostics = [] ↔
      ∀ s, (∃ t ∈ graph.triples, t.subject = s) →
        ∃ «class» definition, Conforms v.ontology v.config graph s «class» definition) ∧
      (v.validate graph).2.checker.Sound := by
  have hstep (checker : Xsd.Checker) (subject : Term × PredicateMap)
      (hmem : subject ∈ graph.index.subjects.entries) (hsound : checker.Sound) :=
    validateEntry_spec v graph hsound hmem
  obtain ⟨hnil, hnext⟩ := collect_eq_nil_iff (I := Xsd.Checker.Sound) hstep hsound
  refine ⟨(sortByLine_eq_nil_iff.trans hnil).trans ?_, hnext⟩
  constructor
  · intro hall s hs
    obtain ⟨predicates, hget⟩ := OrderedMap.mem_keys_iff.1 (TripleIndex.mem_subjects_ofTriples.2 hs)
    exact hall (s, predicates) (OrderedMap.get?_eq_some_iff.1 hget)
  · rintro hall ⟨s, predicates⟩ hmem
    have hkey := OrderedMap.mem_keys_iff.2 ⟨predicates, OrderedMap.get?_eq_some_iff.2 hmem⟩
    exact hall s (TripleIndex.mem_subjects_ofTriples.1 hkey)

/-- A validator whose checker was asked about some literals and that then validated some graphs. -/
def used (ontology : Ontology) (config : ValidationConfig) (calls : List (String × String))
    (earlier : List DataGraph) : Validator :=
  earlier.foldl (fun v graph ↦ (v.validate graph).2)
    { ontology, config, checker := .afterCalls calls }

theorem used_spec (ontology : Ontology) (config : ValidationConfig)
    (calls : List (String × String)) (earlier : List DataGraph) :
    (used ontology config calls earlier).ontology = ontology ∧
      (used ontology config calls earlier).config = config ∧
      (used ontology config calls earlier).checker.Sound := by
  have h (v : Validator) (hv : v.ontology = ontology ∧ v.config = config ∧ v.checker.Sound) :
      let last := earlier.foldl (fun v graph ↦ (v.validate graph).2) v
      last.ontology = ontology ∧ last.config = config ∧ last.checker.Sound := by
    induction earlier generalizing v with
    | nil => exact hv
    | cons graph rest ih => exact ih _ ⟨hv.1, hv.2.1, (validate_spec hv.2.2 graph).2⟩
  exact h _ ⟨rfl, rfl, Xsd.Checker.sound_afterCalls calls⟩

/-- Validation accepts exactly the graphs in which every subject conforms, whatever the validator was
used for before. -/
theorem validate_eq_nil_iff_conforms (ontology : Ontology) (config : ValidationConfig)
    (calls : List (String × String)) (earlier : List DataGraph) (graph : DataGraph) :
    ((used ontology config calls earlier).validate graph).1.diagnostics = [] ↔
      ∀ s, (∃ t ∈ graph.triples, t.subject = s) →
        ∃ «class» definition, Conforms ontology config graph s «class» definition := by
  obtain ⟨hontology, hconfig, hsound⟩ := used_spec ontology config calls earlier
  have h := (validate_spec hsound graph).1
  rwa [hontology, hconfig] at h

end OntologyGuard.Validator
