import OntologyGuard.Proofs.Validation.Reuse

/-!
Validation is local. What is found in a subject depends on its own triples and on the types of the nodes
that it refers to, so graphs that do not refer to each other may be validated together or by themselves.
-/

namespace OntologyGuard

section Index

variable {index index' : TripleIndex} {context : Context} {predicates : PredicateMap}

theorem valueType_congr {value : Term} (h : index.get? value = index'.get? value) :
    valueType index context value = valueType index' context value := by
  unfold valueType
  split
  · rfl
  · rfl
  · simp only [nodeType, h]

namespace Validator

def SameObjects (index index' : TripleIndex) (predicates : PredicateMap) : Prop :=
  ∀ entry ∈ predicates.entries, ∀ o ∈ entry.2.toList, index.get? o = index'.get? o

theorem observe_congr (h : SameObjects index index' predicates) :
    observe index context predicates = observe index' context predicates := by
  apply List.map_congr_left
  intro entry hentry
  have hobjects := h entry (List.mem_of_mem_filter hentry)
  apply congrArg (Prod.mk entry.1)
  apply List.map_congr_left
  intro o ho
  rw [valueType_congr (hobjects o ho)]

theorem untypedValues_congr (h : SameObjects index index' predicates) :
    untypedValues index context predicates = untypedValues index' context predicates := by
  apply List.flatMap_congr
  intro entry hentry
  have hobjects := h entry (List.mem_of_mem_filter hentry)
  apply List.flatMap_congr
  intro o ho
  rw [valueType_congr (hobjects o ho)]

theorem validateSubject_congr {ontology : Ontology} {config : ValidationConfig} {checker : Xsd.Checker}
    {s : Term} (h : SameObjects index index' predicates) :
    validateSubject ontology config context index checker (s, predicates) =
      validateSubject ontology config context index' checker (s, predicates) := by
  simp only [validateSubject, checkSubject, observe_congr h, untypedValues_congr h]

end Validator

end Index

namespace DataGraph

variable {g h whole : DataGraph} {s : Term}

def Mentions (g : DataGraph) (s : Term) : Prop := ∃ t ∈ g.triples, t.subject = s ∨ t.object = s

instance (g : DataGraph) (s : Term) : Decidable (g.Mentions s) :=
  inferInstanceAs (Decidable (∃ t ∈ g.triples, t.subject = s ∨ t.object = s))

/-- A graph that is seen in a larger one as it is by itself. -/
structure PartOf (g whole : DataGraph) : Prop where
  bindings : whole.bindings = g.bindings
  index : ∀ s, g.Mentions s → whole.index.get? s = g.index.get? s
  lines : ∀ t ∈ g.triples, whole.lines.get? t.subject = g.lines.get? t.subject

theorem mem_triples_of_entries {predicates : PredicateMap} {p : Iri} {objects : ObjectSet} {o : Term}
    (hsubject : (s, predicates) ∈ g.index.subjects.entries)
    (hentry : (p, objects) ∈ predicates.entries) (ho : o ∈ objects) : ⟨s, p, o⟩ ∈ g.triples := by
  have hget : g.index.get? s = some predicates := OrderedMap.get?_eq_some_iff.2 hsubject
  have hobjects : predicates.get? p = some objects := OrderedMap.get?_eq_some_iff.2 hentry
  exact (TripleIndex.mem_objects hget hobjects).1 ho

theorem exists_triple_of_entries {entry : Term × PredicateMap}
    (hentry : entry ∈ g.index.subjects.entries) : ∃ t ∈ g.triples, t.subject = entry.1 :=
  TripleIndex.mem_subjects_ofTriples.1 (List.mem_map_of_mem hentry)

/-- The larger graph changes nothing of what is found in a subject. -/
theorem PartOf.validateEntry_eq (hpart : g.PartOf whole) (v : Validator) (checker : Xsd.Checker)
    {subject : Term × PredicateMap} (hsubject : subject ∈ g.index.subjects.entries) :
    Validator.validateEntry v whole checker subject = Validator.validateEntry v g checker subject := by
  obtain ⟨s, predicates⟩ := subject
  obtain ⟨t, ht, rfl⟩ := exists_triple_of_entries hsubject
  have hcontext : Validator.contextFor v.ontology whole = Validator.contextFor v.ontology g := by
    rw [Validator.contextFor, hpart.bindings, ← Validator.contextFor]
  have hobjects : Validator.SameObjects whole.index g.index predicates := by
    intro entry hentry o ho
    have hmem := mem_triples_of_entries hsubject hentry ho
    exact hpart.index o ⟨_, hmem, .inr rfl⟩
  simp only [Validator.validateEntry, hcontext, Validator.validateSubject_congr hobjects,
    hpart.lines t ht]

def append (g h : DataGraph) : DataGraph where
  bindings := g.bindings
  triples := g.triples ++ h.triples
  lineNumbers := g.lineNumbers ++ h.lineNumbers

def LinesOwn (g : DataGraph) : Prop := ∀ entry ∈ g.lineNumbers, ∃ t ∈ g.triples, t.subject = entry.node

instance (g : DataGraph) : Decidable g.LinesOwn :=
  inferInstanceAs (Decidable (∀ entry ∈ g.lineNumbers, ∃ t ∈ g.triples, t.subject = entry.node))

/-- No subject of one graph is mentioned in the other, and the bindings are the same. -/
structure Separate (g h : DataGraph) : Prop where
  bindings : g.bindings = h.bindings
  left : ∀ t ∈ g.triples, ¬ h.Mentions t.subject
  right : ∀ t ∈ h.triples, ¬ g.Mentions t.subject
  leftLines : g.LinesOwn
  rightLines : h.LinesOwn

theorem index_get?_eq_none (hs : ∀ t ∈ g.triples, t.subject ≠ s) : g.index.get? s = none := by
  apply OrderedMap.lookup_eq_none_of_notMem
  intro hmem
  obtain ⟨t, ht, heq⟩ := TripleIndex.mem_subjects_ofTriples.1 hmem
  exact hs t ht heq

theorem lines_get?_eq_none (hown : g.LinesOwn) (hs : ∀ t ∈ g.triples, t.subject ≠ s) :
    g.lines.get? s = none := by
  rw [lines, OrderedMap.get?_ofList]
  apply OrderedMap.lookup_eq_none_of_notMem
  simp only [List.map_reverse, List.mem_reverse, List.map_map, List.mem_map, Function.comp_apply]
  rintro ⟨entry, hentry, rfl⟩
  obtain ⟨t, ht, heq⟩ := hown entry hentry
  exact hs t ht heq

theorem lines_get?_append (g h : DataGraph) (s : Term) :
    (g.append h).lines.get? s = (h.lines.get? s).or (g.lines.get? s) := by
  simp only [lines, append, OrderedMap.get?_ofList, List.map_append, List.reverse_append,
    List.lookup_append]

theorem Separate.entries_append (hsep : g.Separate h) : (g.append h).index.subjects.entries =
    g.index.subjects.entries ++ h.index.subjects.entries :=
  TripleIndex.entries_ofTriples_append fun t ht u hu heq ↦ hsep.left t ht ⟨u, hu, .inl heq.symm⟩

theorem Separate.index_get?_append (hsep : g.Separate h) (s : Term) :
    (g.append h).index.get? s = (g.index.get? s).or (h.index.get? s) := by
  rw [TripleIndex.get?, OrderedMap.get?, hsep.entries_append, List.lookup_append]
  rfl

theorem Separate.partOf_left (hsep : g.Separate h) : g.PartOf (g.append h) where
  bindings := rfl
  index s hs := by
    have hnone : h.index.get? s = none :=
      index_get?_eq_none fun u hu heq ↦ hsep.right u hu (heq ▸ hs)
    rw [hsep.index_get?_append, hnone, Option.or_none]
  lines t ht := by
    have hnone : h.lines.get? t.subject = none :=
      lines_get?_eq_none hsep.rightLines fun u hu heq ↦ hsep.left t ht ⟨u, hu, .inl heq⟩
    rw [lines_get?_append, hnone, Option.none_or]

theorem Separate.partOf_right (hsep : g.Separate h) : h.PartOf (g.append h) where
  bindings := hsep.bindings
  index s hs := by
    have hnone : g.index.get? s = none :=
      index_get?_eq_none fun t ht heq ↦ hsep.left t ht (heq ▸ hs)
    rw [hsep.index_get?_append, hnone, Option.none_or]
  lines u hu := by
    have hnone : g.lines.get? u.subject = none :=
      lines_get?_eq_none hsep.leftLines fun t ht heq ↦ hsep.right u hu ⟨t, ht, .inl heq⟩
    rw [lines_get?_append, hnone, Option.or_none]

end DataGraph

namespace Validator

open DataGraph

def findings (v : Validator) (graph : DataGraph) : List Diagnostic :=
  graph.index.subjects.entries.flatMap fun subject ↦ (validateEntry v graph {} subject).1

theorem perm_findings {v : Validator} (hchecker : v.checker.AskedInFull) (graph : DataGraph) :
    (v.validate graph).1.diagnostics.Perm (v.findings graph) := by
  rw [(validate_eq_flatMap v hchecker graph).1]
  exact List.mergeSort_perm _ _

theorem findings_of_partOf {g whole : DataGraph} (hpart : g.PartOf whole) (v : Validator) :
    (g.index.subjects.entries.flatMap fun subject ↦ (validateEntry v whole {} subject).1) =
      v.findings g := by
  apply List.flatMap_congr
  intro subject hsubject
  rw [hpart.validateEntry_eq v {} hsubject]

theorem findings_append {g h : DataGraph} (hsep : g.Separate h) (v : Validator) :
    v.findings (g.append h) = v.findings g ++ v.findings h := by
  rw [findings, hsep.entries_append, List.flatMap_append, findings_of_partOf hsep.partOf_left,
    findings_of_partOf hsep.partOf_right]

/-- Separate graphs that are validated as one give the diagnostics of both and as many subjects. -/
theorem validate_append (ontology : Ontology) (config : ValidationConfig) {g h : DataGraph}
    (hsep : g.Separate h) :
    let report (graph : DataGraph) := (({ ontology, config } : Validator).validate graph).1
    (report (g.append h)).subjects = (report g).subjects + (report h).subjects ∧
      (report (g.append h)).diagnostics.Perm ((report g).diagnostics ++ (report h).diagnostics) := by
  intro report
  have hperm (graph : DataGraph) := perm_findings (v := { ontology, config })
    Xsd.Checker.askedInFull_empty graph
  constructor
  · change (g.append h).index.subjects.entries.length = _
    rw [hsep.entries_append, List.length_append]
    rfl
  · have hparts := (hperm g).append (hperm h)
    rw [← findings_append hsep] at hparts
    exact (hperm (g.append h)).trans hparts.symm

def drillOntology : Ontology where
  definitions := .ofList [("Drill", .restricted ⟨"Drill", .ofList [("name", { min := some 2 })]⟩)]

/-- The literal has a type that no checker knows, and the other value leads nowhere. -/
def brokenDrill : DataGraph where
  triples := [⟨.blank "a", Rdf.type, .iri "Drill"⟩,
    ⟨.blank "a", "name", .literal ⟨"x", some "xsd:wrench"⟩⟩, ⟨.blank "a", "part", .blank "c"⟩]
  lineNumbers := [⟨.blank "a", 9⟩]

def namedDrill : DataGraph where
  triples := [⟨.iri "b", Rdf.type, .iri "Drill"⟩,
    ⟨.iri "b", "name", .literal ⟨"y", some "xsd:wrench"⟩⟩, ⟨.iri "b", "part", .iri "d"⟩,
    ⟨.iri "d", Rdf.type, .literal ⟨"Drill", none⟩⟩]
  lineNumbers := [⟨.iri "b", 4⟩, ⟨.iri "d", 5⟩]

theorem separate_drills : brokenDrill.Separate namedDrill where
  bindings := rfl
  left := by decide
  right := by decide
  leftLines := by decide
  rightLines := by decide

theorem validate_append_drills :
    let report (graph : DataGraph) :=
      (({ ontology := drillOntology } : Validator).validate graph).1
    brokenDrill.Separate namedDrill ∧
      (report (brokenDrill.append namedDrill)).subjects = 3 ∧
      (report (brokenDrill.append namedDrill)).diagnostics.Perm
        ((report brokenDrill).diagnostics ++ (report namedDrill).diagnostics) ∧
      (report brokenDrill).diagnostics.length = 3 ∧ (report namedDrill).diagnostics.length = 3 := by
  intro report
  obtain ⟨hsubjects, hperm⟩ := validate_append drillOntology {} separate_drills
  have hlength (graph : DataGraph) : (report graph).diagnostics.length =
      (findings { ontology := drillOntology } graph).length :=
    (perm_findings Xsd.Checker.askedInFull_empty graph).length_eq
  have hbroken : (findings { ontology := drillOntology } brokenDrill).length = 3 := by decide +kernel
  have hnamed : (findings { ontology := drillOntology } namedDrill).length = 3 := by decide +kernel
  exact ⟨separate_drills, hsubjects, hperm, (hlength _).trans hbroken, (hlength _).trans hnamed⟩

end Validator

end OntologyGuard
