import OntologyGuard.Proofs.Validation.Observation

namespace OntologyGuard

/-- All of a diagnostic but its message. -/
def Diagnostic.signature (d : Diagnostic) :
    Diagnostic.Kind × Option Iri × Option Iri × Option UInt32 :=
  (d.kind, d.class, d.property, d.line)

namespace DataGraph

/-- Graphs that state the same triples, in any order and any number of times. -/
structure SameTriples (g h : DataGraph) : Prop where
  bindings : g.bindings = h.bindings
  lineNumbers : g.lineNumbers = h.lineNumbers
  mem_iff : ∀ t, t ∈ g.triples ↔ t ∈ h.triples

namespace SameTriples

variable {g h : DataGraph} {s o type : Term} {p : Iri} {ontology : Ontology}

theorem symm (hsame : g.SameTriples h) : h.SameTriples g :=
  ⟨hsame.bindings.symm, hsame.lineNumbers.symm, fun t ↦ (hsame.mem_iff t).symm⟩

theorem onlyType_iff (hsame : g.SameTriples h) : OnlyType g s type ↔ OnlyType h s type :=
  forall_congr' fun _ ↦ by rw [hsame.mem_iff]

theorem hasType (hsame : g.SameTriples h) {type : Iri} (htype : HasType ontology g o type) :
    HasType ontology h o type := by
  cases htype with
  | plain lexical => exact .plain lexical
  | absolute lexical habsolute => exact .absolute lexical habsolute
  | qualified lexical habsolute split first bound =>
    unfold LastBound at bound
    rw [hsame.bindings] at bound
    exact .qualified lexical habsolute split first bound
  | node hnode only => exact .node hnode (hsame.onlyType_iff.1 only)

theorem contextFor_eq (hsame : g.SameTriples h) :
    Validator.contextFor ontology g = Validator.contextFor ontology h := by
  rw [Validator.contextFor, hsame.bindings, ← Validator.contextFor]

theorem typed_eq (hsame : g.SameTriples h) (ontology : Ontology) (o : Term) :
    Validator.typed g.index (Validator.contextFor ontology h) o =
      Validator.typed h.index (Validator.contextFor ontology h) o := by
  apply congrArg (Prod.mk o)
  ext type
  rw [toOption_valueType, ← hsame.contextFor_eq, toOption_valueType]
  exact ⟨hsame.hasType, hsame.symm.hasType⟩

theorem valueCount_eq (hsame : g.SameTriples h) (s : Term) (p : Iri) :
    Validator.valueCount g s p = Validator.valueCount h s p := by
  unfold Validator.valueCount
  split
  · rfl
  next hp =>
    congr 1
    ext o
    rw [List.mem_toFinset, List.mem_toFinset, TripleIndex.mem_objectsOf, TripleIndex.mem_objectsOf,
      hsame.mem_iff]

theorem perm_subjects (hsame : g.SameTriples h) : g.index.subjects.keys.Perm h.index.subjects.keys := by
  have hnodup (graph : DataGraph) : graph.index.subjects.keys.Nodup := graph.index.subjects.nodup_keys
  have hmem (graph : DataGraph) (s : Term) :
      s ∈ graph.index.subjects.keys ↔ ∃ t ∈ graph.triples, t.subject = s :=
    TripleIndex.mem_subjects_ofTriples
  refine (List.perm_ext_iff_of_nodup (hnodup g) (hnodup h)).2 fun s ↦ ?_
  rw [hmem, hmem]
  simp only [hsame.mem_iff]

end SameTriples

end DataGraph

namespace Validator

open DataGraph

/-- Findings that agree in everything but the messages and the order. -/
def Alike (found other : List Diagnostic) : Prop :=
  (found.map Diagnostic.signature).Perm (other.map Diagnostic.signature)

namespace Alike

variable {found other more others : List Diagnostic}

theorem of_perm (h : found.Perm other) : Alike found other := h.map _

theorem singleton {d d' : Diagnostic} (h : d.signature = d'.signature) : Alike [d] [d'] :=
  .of_eq (congrArg ([·]) h)

theorem append (h : Alike found other) (hmore : Alike more others) : Alike (found ++ more) (other ++ others) := by
  unfold Alike
  rw [List.map_append, List.map_append]
  exact List.Perm.append h hmore

theorem flatMap {α : Type} {items items' : List α} (h : items.Perm items') {f f' : α → List Diagnostic}
    (hf : ∀ item ∈ items, Alike (f item) (f' item)) : Alike (items.flatMap f) (items'.flatMap f') := by
  unfold Alike
  rw [List.map_flatMap, List.map_flatMap]
  exact (List.Perm.flatMap_left items hf).trans (h.flatMap_right _)

theorem map (h : Alike found other) (f : Diagnostic → Diagnostic)
    (g : Diagnostic.Kind × Option Iri × Option Iri × Option UInt32 →
      Diagnostic.Kind × Option Iri × Option Iri × Option UInt32)
    (hg : ∀ d, (f d).signature = g d.signature) : Alike (found.map f) (other.map f) := by
  have hcomp : Diagnostic.signature ∘ f = g ∘ Diagnostic.signature := funext hg
  unfold Alike
  rw [List.map_map, List.map_map, hcomp, ← List.map_map, ← List.map_map]
  exact List.Perm.map g h

end Alike

variable {g h : DataGraph} {ontology : Ontology} {config : ValidationConfig} {s : Term}
  {predicates predicates' : PredicateMap}

theorem perm_properties (hsame : g.SameTriples h) (hg : g.index.get? s = some predicates)
    (hh : h.index.get? s = some predicates') : (properties predicates).Perm (properties predicates') := by
  refine (List.perm_ext_iff_of_nodup (nodup_properties _) (nodup_properties _)).2 fun p ↦ ?_
  simp only [mem_properties_iff hg, mem_properties_iff hh, hsame.mem_iff]

theorem perm_values (hsame : g.SameTriples h) (hg : g.index.get? s = some predicates)
    (hh : h.index.get? s = some predicates') : (values predicates).Perm (values predicates') := by
  refine (List.perm_ext_iff_of_nodup (nodup_values _) (nodup_values _)).2 fun ⟨p, o⟩ ↦ ?_
  rw [mem_values_iff hg, mem_values_iff hh, hsame.mem_iff]

theorem signature_report (fault : TypeFault) (context : Context) :
    (fault.report context).signature = (.dataError, none, none, none) := rfl

theorem alike_report (fault fault' : TypeFault) (context context' : Context) :
    Alike [fault.report context] [fault'.report context'] := by
  apply Alike.singleton
  rw [signature_report, signature_report]

theorem alike_untypedReports (hsame : g.SameTriples h) (o : Term) :
    Alike (untypedReports g.index (contextFor ontology h) o)
      (untypedReports h.index (contextFor ontology h) o) := by
  have htyped := congrArg Prod.snd (hsame.typed_eq ontology o)
  dsimp only [typed] at htyped
  unfold untypedReports
  cases hvalue : valueType g.index (contextFor ontology h) o <;>
    cases hother : valueType h.index (contextFor ontology h) o <;>
    rw [hvalue, hother] at htyped
  case ok.ok => exact .of_perm .nil
  case ok.error => cases htyped
  case error.ok => cases htyped
  case error.error fault fault' => exact alike_report fault fault' _ _

/-- The checks of a subject of a known class. Only a value without a type can be reported otherwise. -/
theorem alike_checkSubject (hsame : g.SameTriples h) (hg : g.index.get? s = some predicates)
    (hh : h.index.get? s = some predicates') (definition : ClassDefinition) :
    Alike (checkSubject ontology config (contextFor ontology g) g.index {} definition predicates).1
      (checkSubject ontology config (contextFor ontology h) h.index {} definition predicates').1 := by
  have hvalues := perm_values hsame hg hh
  rw [checkSubject_eq_append hg, checkSubject_eq_append hh]
  simp only [hsame.contextFor_eq, hsame.typed_eq, hsame.valueCount_eq]
  refine .append (.append (.append (.append ?_ (.of_perm (.refl _))) ?_) ?_) ?_
  · exact .flatMap hvalues fun value _ ↦ alike_untypedReports hsame value.2
  · cases definition.asRestricted? with
    | none => exact .of_perm .nil
    | some constraints =>
      exact .append (.of_perm (.refl _)) (.of_perm ((perm_properties hsame hg hh).flatMap_right _))
  · exact .of_perm (hvalues.flatMap_right _)
  · exact .of_perm (hvalues.flatMap_right _)

theorem alike_validateSubject (hsame : g.SameTriples h) (hg : g.index.get? s = some predicates)
    (hh : h.index.get? s = some predicates') :
    Alike (validateSubject ontology config (contextFor ontology g) g.index {} (s, predicates)).1
      (validateSubject ontology config (contextFor ontology h) h.index {} (s, predicates')).1 := by
  have htype («class» : Iri) :
      subjectType s predicates = .ok «class» ↔ subjectType s predicates' = .ok «class» := by
    rw [subjectType_eq_ok_iff hg, subjectType_eq_ok_iff hh, hsame.onlyType_iff]
  unfold validateSubject
  dsimp only
  cases hclass : subjectType s predicates with
  | error fault =>
    cases hother : subjectType s predicates' with
    | error fault' => exact alike_report fault fault' _ _
    | ok «class» => cases hclass.symm.trans ((htype «class»).2 hother)
  | ok «class» =>
    rw [(htype «class»).1 hclass]
    dsimp only
    cases ontology.get? «class» with
    | none => exact .of_perm (.refl _)
    | some definition =>
      exact (alike_checkSubject hsame hg hh definition).map _
        (fun signature ↦ (signature.1, some «class», signature.2.2)) fun _ ↦ rfl

theorem alike_foundIn (hsame : g.SameTriples h) (v : Validator) (hs : s ∈ g.index.subjects.keys) :
    Alike (v.foundIn g s) (v.foundIn h s) := by
  obtain ⟨predicates, hg⟩ := OrderedMap.mem_keys_iff.1 hs
  obtain ⟨predicates', hh⟩ := OrderedMap.mem_keys_iff.1 (hsame.perm_subjects.mem_iff.1 hs)
  have hlines : h.lines = g.lines := by rw [lines, lines, hsame.lineNumbers]
  rw [foundIn, foundIn, TripleIndex.get?, TripleIndex.get?, hg, hh]
  simp only [Option.map_some, Option.getD_some, validateEntry, hlines]
  exact (alike_validateSubject hsame hg hh).map _
    (fun signature ↦ (signature.1, signature.2.1, signature.2.2.1, g.lines.get? s)) fun _ ↦ rfl

/-- Graphs that state the same triples have as many subjects, and the diagnostics agree in kind, class,
property and line, as many of each. -/
theorem validate_of_sameTriples (ontology : Ontology) (config : ValidationConfig) {g h : DataGraph}
    (hsame : g.SameTriples h) :
    let report (graph : DataGraph) := (({ ontology, config } : Validator).validate graph).1
    (report g).subjects = (report h).subjects ∧
      ((report g).diagnostics.map Diagnostic.signature).Perm
        ((report h).diagnostics.map Diagnostic.signature) := by
  intro report
  have hperm (graph : DataGraph) := perm_foundIn (v := { ontology, config })
    Xsd.Checker.askedInFull_empty graph
  constructor
  · exact OrderedMap.size_eq_of_keys fun s ↦ hsame.perm_subjects.mem_iff
  · have hfound := Alike.flatMap hsame.perm_subjects fun s hs ↦ alike_foundIn hsame { ontology, config } hs
    exact ((hperm g).map _).trans (hfound.trans ((hperm h).map _).symm)

def ambiguousDrill : DataGraph where
  triples := [⟨.blank "a", Rdf.type, .iri "Drill"⟩,
    ⟨.blank "a", "name", .literal ⟨"x", some "xsd:wrench"⟩⟩, ⟨.blank "a", "part", .iri "b"⟩,
    ⟨.iri "b", Rdf.type, .iri "Drill"⟩, ⟨.iri "b", Rdf.type, .iri "Saw"⟩]
  lineNumbers := [⟨.blank "a", 9⟩]

def repeatedDrill : DataGraph :=
  { ambiguousDrill with triples := ambiguousDrill.triples.reverse ++ ambiguousDrill.triples }

theorem validate_repeatedDrill :
    let report (graph : DataGraph) := (({ ontology := drillOntology } : Validator).validate graph).1
    ambiguousDrill.SameTriples repeatedDrill ∧
      (report ambiguousDrill).subjects = (report repeatedDrill).subjects ∧
      ((report ambiguousDrill).diagnostics.map Diagnostic.signature).Perm
        ((report repeatedDrill).diagnostics.map Diagnostic.signature) ∧
      (report ambiguousDrill).diagnostics.length = 4 := by
  intro report
  have hsame : ambiguousDrill.SameTriples repeatedDrill :=
    ⟨rfl, rfl, fun t ↦ by simp [repeatedDrill]⟩
  have hlength := (perm_findings (v := { ontology := drillOntology }) Xsd.Checker.askedInFull_empty
    ambiguousDrill).length_eq
  have hfindings : (findings { ontology := drillOntology } ambiguousDrill).length = 4 := by decide +kernel
  obtain ⟨hsubjects, hperm⟩ := validate_of_sameTriples drillOntology {} hsame
  exact ⟨hsame, hsubjects, hperm, hlength.trans hfindings⟩

end Validator

end OntologyGuard
