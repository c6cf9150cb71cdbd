import OntologyGuard.Proofs.Context
import OntologyGuard.Proofs.Rdf.TripleIndex
import OntologyGuard.Proofs.Text.Split
import OntologyGuard.Validation.Validator

namespace OntologyGuard

def OnlyType (graph : DataGraph) (node type : Term) : Prop :=
  ∀ o, ⟨node, Rdf.type, o⟩ ∈ graph.triples ↔ o = type

def IsAbsolute (datatype : String) : Prop :=
  Text.startsWith datatype "http://" = true ∨ Text.startsWith datatype "https://" = true

/-- The namespace last bound to a qualifier, by the defaults, the ontology or the data. -/
def LastBound (ontology : Ontology) (graph : DataGraph) (qualifier iri : String) : Prop :=
  (Context.standardBindings ++ ontology.bindings ++ graph.bindings).reverse.lookup qualifier =
    some iri

inductive HasType (ontology : Ontology) (graph : DataGraph) : Term → Iri → Prop where
  | plain (lexical : String) : HasType ontology graph (.literal ⟨lexical, none⟩) Xsd.string
  | absolute (lexical : String) {datatype : Iri} (h : IsAbsolute datatype) :
    HasType ontology graph (.literal ⟨lexical, some datatype⟩) datatype
  | qualified (lexical : String) {datatype qualifier name iri : String} (h : ¬ IsAbsolute datatype)
    (split : datatype = qualifier ++ ":" ++ name) (first : ':' ∉ qualifier.toList)
    (bound : LastBound ontology graph qualifier iri) :
    HasType ontology graph (.literal ⟨lexical, some datatype⟩) (iri ++ name)
  | node {node type : Term} (h : node.isLiteral = false) (only : OnlyType graph node type) :
    HasType ontology graph node type.identifier

variable {ontology : Ontology} {graph : DataGraph} {node : Term} {predicates : PredicateMap}

theorem types_eq_singleton_iff (h : graph.index.get? node = some predicates) {type : Term} :
    predicates.types = [type] ↔ OnlyType graph node type := by
  refine Iff.trans ?_ (TripleIndex.single?_eq_some_iff h)
  unfold PredicateMap.types
  cases predicates.get? Rdf.type with
  | none => simp
  | some objects => exact DistinctList.single?_eq_some_iff.symm

theorem exists_get?_of_mem {p : Iri} {o : Term} (h : ⟨node, p, o⟩ ∈ graph.triples) :
    ∃ predicates, graph.index.get? node = some predicates :=
  TripleIndex.exists_get?_of_mem h

theorem subjectType_eq_ok_iff (h : graph.index.get? node = some predicates) {«class» : Iri} :
    subjectType node predicates = .ok «class» ↔ OnlyType graph node (.iri «class») := by
  rw [← types_eq_singleton_iff h]
  unfold subjectType
  split
  next hnil => simp [hnil]
  next iri hone => simp [hone]
  next type hne hone =>
    refine iff_of_false (by simp) fun htypes ↦ ?_
    exact hne «class» (List.singleton_inj.1 (hone.symm.trans htypes))
  next types hnil hiri hone =>
    refine iff_of_false (by simp) fun htypes ↦ hone _ htypes

theorem nodeType_eq_ok_iff {type : Iri} :
    nodeType graph.index node = .ok type ↔ ∃ t, OnlyType graph node t ∧ t.identifier = type := by
  unfold nodeType
  cases hget : graph.index.get? node with
  | none =>
    refine iff_of_false (by simp) ?_
    rintro ⟨t, honly, -⟩
    obtain ⟨predicates, hsome⟩ := exists_get?_of_mem ((honly t).2 rfl)
    cases hget.symm.trans hsome
  | some predicates =>
    simp only [← types_eq_singleton_iff hget]
    cases predicates.types with
    | nil => simp
    | cons t rest => cases rest <;> simp

theorem namespace?_contextFor {qualifier iri : String} :
    (Validator.contextFor ontology graph).namespace? qualifier = some iri ↔
      LastBound ontology graph qualifier iri := by
  rw [Validator.contextFor, Ontology.context, Context.namespace?_populate,
    Context.namespace?_ofBindings]
  simp only [LastBound, List.reverse_append, List.lookup_append]

theorem eq_qualified_iff {datatype qualifier name : String} :
    datatype.toList = qualifier.toList ++ ':' :: name.toList ↔
      datatype = qualifier ++ ":" ++ name := by
  rw [← String.toList_inj]
  simp

theorem resolveDatatype_eq_ok_iff {datatype : String} {type : Iri} :
    resolveDatatype (Validator.contextFor ontology graph) datatype = .ok type ↔
      IsAbsolute datatype ∧ type = datatype ∨
      ¬ IsAbsolute datatype ∧ ∃ qualifier name iri, datatype = qualifier ++ ":" ++ name ∧
        ':' ∉ qualifier.toList ∧ LastBound ontology graph qualifier iri ∧ type = iri ++ name := by
  unfold resolveDatatype
  split
  next h =>
    have habsolute : IsAbsolute datatype := by simpa [IsAbsolute] using h
    simp [habsolute, eq_comm]
  next h =>
    have habsolute : ¬ IsAbsolute datatype := by simpa [IsAbsolute] using h
    simp only [habsolute, false_and, false_or, not_false_eq_true, true_and]
    constructor
    · intro hok
      split at hok
      · cases hok
      next qualifier name hsplit =>
        obtain ⟨heq, hfirst⟩ := Text.splitOnce?_eq_some_iff.1 hsplit
        split at hok
        next iri hbound =>
          obtain rfl := Except.ok.inj hok
          have hlast := namespace?_contextFor.1 hbound
          exact ⟨qualifier, name, iri, eq_qualified_iff.1 heq, hfirst, hlast, rfl⟩
        next => cases hok
    · rintro ⟨qualifier, name, iri, heq, hfirst, hbound, rfl⟩
      rw [Text.splitOnce?_eq_some_iff.2 ⟨eq_qualified_iff.2 heq, hfirst⟩]
      simp only [namespace?_contextFor.2 hbound]

theorem valueType_eq_ok_iff {value : Term} {type : Iri} :
    valueType graph.index (Validator.contextFor ontology graph) value = .ok type ↔
      HasType ontology graph value type := by
  constructor
  · intro h
    unfold valueType at h
    split at h
    next lexical =>
      obtain rfl := Except.ok.inj h
      exact .plain lexical
    next lexical datatype =>
      rcases resolveDatatype_eq_ok_iff.1 h with ⟨habsolute, rfl⟩ |
        ⟨habsolute, qualifier, name, iri, heq, hfirst, hbound, rfl⟩
      · exact .absolute lexical habsolute
      · exact .qualified lexical habsolute heq hfirst hbound
    next hplain hdatatype =>
      obtain ⟨t, honly, rfl⟩ := nodeType_eq_ok_iff.1 h
      refine .node ?_ honly
      rcases value with iri | label | ⟨lexical, _ | datatype⟩
      · rfl
      · rfl
      · exact absurd rfl (hplain lexical)
      · exact absurd rfl (hdatatype lexical datatype)
  · intro h
    cases h with
    | plain lexical => rfl
    | absolute lexical h => exact resolveDatatype_eq_ok_iff.2 (.inl ⟨h, rfl⟩)
    | qualified lexical h heq hfirst hbound =>
      exact resolveDatatype_eq_ok_iff.2 (.inr ⟨h, _, _, _, heq, hfirst, hbound, rfl⟩)
    | node h honly =>
      have hnode := nodeType_eq_ok_iff.2 ⟨_, honly, rfl⟩
      cases value with
      | literal l => cases h
      | _ => exact hnode

theorem toOption_valueType {value : Term} {type : Iri} :
    (valueType graph.index (Validator.contextFor ontology graph) value).toOption = some type ↔
      HasType ontology graph value type := by
  rw [← valueType_eq_ok_iff]
  cases valueType graph.index (Validator.contextFor ontology graph) value <;> simp [Except.toOption]

end OntologyGuard
