import OntologyGuard.Proofs.Validation.Acceptance

/-!
What a validator was used for before does not show in its reports. Its checker of literals is only asked
about identifiers in full, and then repeats what it would say at first.
-/

namespace OntologyGuard.Validator

/-- A check that finds what it would find with a new checker, and leaves the checker such that the next
one does. -/
def HistoryFree (check : Xsd.Checker → List Diagnostic × Xsd.Checker) : Prop :=
  ∀ checker : Xsd.Checker, checker.AskedInFull →
    (check checker).1 = (check {}).1 ∧ (check checker).2.AskedInFull

variable {ontology : Ontology} {config : ValidationConfig}

theorem HistoryFree.of_const (found : List Diagnostic) :
    HistoryFree fun checker ↦ (found, checker) :=
  fun _ h ↦ ⟨rfl, h⟩

theorem HistoryFree.map {check : Xsd.Checker → List Diagnostic × Xsd.Checker} (h : HistoryFree check)
    (f : List Diagnostic → List Diagnostic) :
    HistoryFree fun checker ↦ (f (check checker).1, (check checker).2) :=
  fun checker hchecker ↦ ⟨congrArg f (h checker hchecker).1, (h checker hchecker).2⟩

section Collect

variable {α : Type} {step : Xsd.Checker → α → List Diagnostic × Xsd.Checker} {items : List α}

theorem collect_eq_flatMap (h : ∀ item ∈ items, HistoryFree (step · item)) {checker : Xsd.Checker}
    (hchecker : checker.AskedInFull) :
    (collect step checker items).1 = items.flatMap (fun item ↦ (step {} item).1) ∧
      (collect step checker items).2.AskedInFull := by
  induction items generalizing checker with
  | nil => exact ⟨rfl, hchecker⟩
  | cons item rest ih =>
    obtain ⟨hfirst, hnext⟩ := h item List.mem_cons_self checker hchecker
    obtain ⟨hrest, hlast⟩ := ih (fun later hmem ↦ h later (.tail _ hmem)) hnext
    refine ⟨?_, hlast⟩
    rw [List.flatMap_cons, ← hfirst, ← hrest]
    rfl

theorem HistoryFree.collect (h : ∀ item ∈ items, HistoryFree (step · item)) :
    HistoryFree (collect step · items) := by
  intro checker hchecker
  obtain ⟨hfound, hnext⟩ := collect_eq_flatMap h hchecker
  obtain ⟨hfresh, -⟩ := collect_eq_flatMap h Xsd.Checker.askedInFull_empty
  exact ⟨hfound.trans hfresh.symm, hnext⟩

end Collect

variable (ontology config) in
theorem historyFree_checkLiteral (value : Term) (type : Iri) :
    HistoryFree (checkLiteral ontology config · value type) := by
  intro checker hchecker
  unfold checkLiteral
  split
  next lexical datatype =>
    split
    · exact ⟨rfl, hchecker⟩
    · split
      next hschema =>
        obtain ⟨name, rfl⟩ := Text.startsWith_iff.1 hschema
        exact ⟨hchecker.validate_fst lexical name, hchecker.validate lexical name⟩
      next => split <;> exact ⟨rfl, hchecker⟩
  next => exact ⟨rfl, hchecker⟩

def checkValue (ontology : Ontology) (config : ValidationConfig) (property : Iri) (checker : Xsd.Checker)
    (value : TypedValue) : List Diagnostic × Xsd.Checker :=
  match value.2 with
  | none => ([], checker)
  | some type =>
    let (found, checker) := checkLiteral ontology config checker value.1 type
    (found.map fun d ↦ { d with property := some property }, checker)

variable (ontology config) in
theorem checkValues_eq_collect (checker : Xsd.Checker) (entry : Iri × List TypedValue) :
    checkValues ontology config checker entry =
      Validator.collect (checkValue ontology config entry.1) checker entry.2 := rfl

variable (ontology config) in
theorem historyFree_checkValue (property : Iri) (value : TypedValue) :
    HistoryFree (checkValue ontology config property · value) := by
  unfold checkValue
  cases value.2 with
  | none => exact .of_const []
  | some type =>
    exact (historyFree_checkLiteral ontology config value.1 type).map
      (·.map fun d ↦ { d with property := some property })

variable (ontology config) in
theorem historyFree_checkValues (entry : Iri × List TypedValue) :
    HistoryFree (checkValues ontology config · entry) :=
  HistoryFree.collect fun value _ ↦ historyFree_checkValue ontology config entry.1 value

variable (ontology config) in
theorem historyFree_checkSubject (context : Context) (index : TripleIndex)
    (definition : ClassDefinition) (predicates : PredicateMap) :
    HistoryFree (checkSubject ontology config context index · definition predicates) :=
  (HistoryFree.collect fun entry _ ↦ historyFree_checkValues ontology config entry).map _

variable (ontology config) in
theorem historyFree_validateSubject (context : Context) (index : TripleIndex)
    (subject : Term × PredicateMap) :
    HistoryFree (validateSubject ontology config context index · subject) := by
  unfold validateSubject
  cases subjectType subject.1 subject.2 with
  | error fault => exact .of_const [fault.report context]
  | ok «class» =>
    dsimp only
    cases ontology.get? «class» with
    | none => exact .of_const _
    | some definition =>
      exact (historyFree_checkSubject ontology config context index definition subject.2).map
        (·.map fun d ↦ { d with «class» := some «class» })

theorem historyFree_validateEntry (v : Validator) (graph : DataGraph)
    (subject : Term × PredicateMap) : HistoryFree (validateEntry v graph · subject) :=
  (historyFree_validateSubject v.ontology v.config (contextFor v.ontology graph) graph.index
    subject).map fun found ↦ found.map fun (d : Diagnostic) ↦
      { d with line := graph.lines.get? subject.1 }

/-- A report lists what is found in each subject by itself, with a new checker each. -/
theorem validate_eq_flatMap (v : Validator) (h : v.checker.AskedInFull) (graph : DataGraph) :
    (v.validate graph).1 =
        { subjects := graph.index.size
          diagnostics := Diagnostic.sortByLine
            (graph.index.subjects.entries.flatMap fun subject ↦ (validateEntry v graph {} subject).1) } ∧
      (v.validate graph).2.checker.AskedInFull := by
  obtain ⟨hfound, hnext⟩ := collect_eq_flatMap
    (fun subject _ ↦ historyFree_validateEntry v graph subject) h
  exact ⟨congrArg (fun found ↦ Report.mk graph.index.size (Diagnostic.sortByLine found)) hfound, hnext⟩

/-- One validator for all graphs gives each of them the report that a new validator gives. -/
theorem validateAll_eq_map (ontology : Ontology) (config : ValidationConfig)
    (graphs : List DataGraph) :
    ({ ontology, config } : Validator).validateAll graphs =
      graphs.map fun graph ↦ (({ ontology, config } : Validator).validate graph).1 := by
  have h (checker : Xsd.Checker) (hchecker : checker.AskedInFull) :
      ({ ontology, config, checker } : Validator).validateAll graphs =
        graphs.map fun graph ↦ (({ ontology, config } : Validator).validate graph).1 := by
    induction graphs generalizing checker with
    | nil => rfl
    | cons graph rest ih =>
      obtain ⟨hreport, hnext⟩ := validate_eq_flatMap { ontology, config, checker } hchecker graph
      obtain ⟨hfresh, -⟩ := validate_eq_flatMap { ontology, config } Xsd.Checker.askedInFull_empty graph
      have hfirst := hreport.trans hfresh.symm
      have hrest := ih _ hnext
      rw [List.map_cons, ← hfirst, ← hrest]
      rfl
  exact h {} Xsd.Checker.askedInFull_empty

end OntologyGuard.Validator
