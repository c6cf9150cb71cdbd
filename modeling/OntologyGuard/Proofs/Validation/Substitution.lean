import OntologyGuard.Proofs.Ontology.Resolution
import OntologyGuard.Proofs.Validation.Acceptance

namespace OntologyGuard

namespace DataGraph

def retype (graph : DataGraph) (s : Term) (lower upper : Iri) : DataGraph :=
  { graph with
    triples := graph.triples.map fun t ↦
      if t = ⟨s, Rdf.type, .iri lower⟩ then ⟨s, Rdf.type, .iri upper⟩ else t }

variable {graph : DataGraph} {s node o type : Term} {p lower upper : Iri}

theorem mem_retype_iff (h : ¬ (node = s ∧ p = Rdf.type)) :
    ⟨node, p, o⟩ ∈ (graph.retype s lower upper).triples ↔ ⟨node, p, o⟩ ∈ graph.triples := by
  simp only [retype, List.mem_map]
  constructor
  · rintro ⟨t, ht, heq⟩
    split at heq
    · cases heq
      exact absurd ⟨rfl, rfl⟩ h
    · exact heq ▸ ht
  · intro ht
    refine ⟨_, ht, if_neg ?_⟩
    rintro ⟨⟩
    exact h ⟨rfl, rfl⟩

theorem onlyType_retype (h : OnlyType graph s (.iri lower)) :
    OnlyType (graph.retype s lower upper) s (.iri upper) := by
  intro o
  simp only [retype, List.mem_map]
  constructor
  · rintro ⟨t, ht, heq⟩
    split at heq
    · cases heq
      rfl
    next hne =>
      subst heq
      exact absurd (congrArg _ ((h o).1 ht)) hne
  · rintro rfl
    exact ⟨_, (h _).2 rfl, if_pos rfl⟩

theorem onlyType_retype_iff (hne : node ≠ s) :
    OnlyType (graph.retype s lower upper) node type ↔ OnlyType graph node type :=
  forall_congr' fun _ ↦ by rw [mem_retype_iff fun h ↦ hne h.1]

theorem hasType_retype {ontology : Ontology} {type : Iri} (hne : node ≠ s)
    (h : HasType ontology graph node type) :
    HasType ontology (graph.retype s lower upper) node type := by
  cases h with
  | plain lexical => exact .plain lexical
  | absolute lexical h => exact .absolute lexical h
  | qualified lexical h split first bound => exact .qualified lexical h split first bound
  | node h only => exact .node h ((onlyType_retype_iff hne).2 only)

theorem hasType_literal_of_retype {ontology : Ontology} {value : Literal} {type : Iri}
    (h : HasType ontology (graph.retype s lower upper) (.literal value) type) :
    HasType ontology graph (.literal value) type := by
  cases h with
  | plain lexical => exact .plain lexical
  | absolute lexical h => exact .absolute lexical h
  | qualified lexical h split first bound => exact .qualified lexical h split first bound
  | node h => cases h

end DataGraph

namespace Validator

open DataGraph

variable {ontology : Ontology} {config : ValidationConfig} {graph : DataGraph} {s : Term}
  {p lower upper : Iri}

theorem valueCount_retype :
    valueCount (graph.retype s lower upper) s p = valueCount graph s p := by
  unfold valueCount
  split
  · rfl
  next hp =>
    congr 1
    ext o
    rw [List.mem_toFinset, List.mem_toFinset, TripleIndex.mem_objectsOf, TripleIndex.mem_objectsOf,
      mem_retype_iff fun h ↦ hp h.2]

theorem CountAllowed.loosen {own inherited : PropertyConstraints} {n : Nat}
    (htight : own.AtLeastAsTight inherited) (h : CountAllowed config p own n) :
    CountAllowed config p inherited n where
  max m hm := by
    obtain ⟨k, hk, hle⟩ := htight.max m hm
    have hn := h.max k hk
    have hle' := UInt32.le_iff_toNat_le.1 hle
    omega
  min m hm := by
    obtain ⟨k, hk, hle⟩ := htight.min m hm
    have hle' := UInt32.le_iff_toNat_le.1 hle
    rcases h.min k hk with hn | hzero
    · exact .inl (by omega)
    · exact .inr hzero

section Resolved

variable {resolver : ResolverConfig} {document : OntologyDocument}

theorem expectedRange_of_meets (h : (Ontology.resolve resolver document).diagnostics = [])
    (hmeets : (Ontology.resolve resolver document).definitions.Meets lower upper)
    {own inherited : ClassDefinition} {range : Iri}
    (hlower : (Ontology.resolve resolver document).definitions.get? lower = some own)
    (hupper : (Ontology.resolve resolver document).definitions.get? upper = some inherited)
    (hexpected : ExpectedRange (.resolve resolver document) inherited p range) :
    ExpectedRange (.resolve resolver document) own p range := by
  rcases hexpected with ⟨required, bounds, rfl, hbounds, hrange⟩ | ⟨-, hdeclared⟩
  · obtain ⟨constraints, hconstraints, htight⟩ :=
      hmeets required (Definitions.restricted?_eq_some_iff.2 hupper)
    obtain ⟨tighter, htighter, hle⟩ := htight p bounds hbounds
    rw [Definitions.restricted?_eq_some_iff, hlower] at hconstraints
    exact .inl ⟨constraints, tighter, Option.some.inj hconstraints, htighter,
      hle.range range hrange⟩
  · -- a range of the lower class alone is the declared one, to which the upper class falls back
    by_cases hown : ∃ range, OwnRange own p range
    · obtain ⟨range', constraints, bounds, rfl, hbounds, hrange⟩ := hown
      obtain rfl := Ontology.range_eq_declared h (Definitions.restricted?_eq_some_iff.2 hlower)
        hbounds hrange hdeclared
      exact .inl ⟨constraints, bounds, rfl, hbounds, hrange⟩
    · exact .inr ⟨hown, hdeclared⟩

theorem Conforms.retype (h : (Ontology.resolve resolver document).diagnostics = [])
    (hbelow : DeclaredBelow document (.resolve resolver document) lower upper)
    (hself : ∀ p, ⟨s, p, s⟩ ∉ graph.triples) {definition : ClassDefinition}
    (hconforms : Conforms (.resolve resolver document) config graph s lower definition) :
    ∃ inherited, Conforms (.resolve resolver document) config (graph.retype s lower upper) s upper
      inherited := by
  obtain ⟨⟨d, hd, rfl⟩, hdatatype⟩ := hbelow.plain_upper
  obtain ⟨inherited, hinherited⟩ := Ontology.defined_of_mem_classes resolver hd
  have hmeets := hbelow.meets h
  have hvalue {p : Iri} {o : Term} (hp : p ≠ Rdf.type)
      (ho : ⟨s, p, o⟩ ∈ (graph.retype s lower d.iri).triples) :
      ⟨s, p, o⟩ ∈ graph.triples ∧ o ≠ s := by
    rw [mem_retype_iff fun h ↦ hp h.2] at ho
    refine ⟨ho, ?_⟩
    rintro rfl
    exact hself p ho
  refine ⟨inherited, ?_⟩
  constructor
  case only => exact onlyType_retype hconforms.only
  case defined => exact hinherited
  case notDatatype =>
    rintro words rfl
    exact hdatatype words hinherited
  case typed =>
    intro p o hp ho
    obtain ⟨hmem, hne⟩ := hvalue hp ho
    obtain ⟨type, htype⟩ := hconforms.typed p o hp hmem
    exact ⟨type, hasType_retype hne htype⟩
  case counts =>
    rintro required p bounds rfl hbounds
    obtain ⟨constraints, hconstraints, htight⟩ :=
      hmeets required (Definitions.restricted?_eq_some_iff.2 hinherited)
    obtain ⟨tighter, htighter, hle⟩ := htight p bounds hbounds
    rw [Definitions.restricted?_eq_some_iff, hconforms.defined] at hconstraints
    rw [valueCount_retype]
    exact (hconforms.counts constraints p tighter (Option.some.inj hconstraints) htighter).loosen hle
  case ranges =>
    intro p o range hp ho hexpected
    obtain ⟨hmem, hne⟩ := hvalue hp ho
    obtain ⟨type, htype, hfits⟩ := hconforms.ranges p o range hp hmem
      (expectedRange_of_meets h hmeets hconforms.defined hinherited hexpected)
    exact ⟨type, hasType_retype hne htype, hfits⟩
  case literals =>
    intro p lexical datatype type hp ho htype
    exact hconforms.literals p lexical datatype type hp (hvalue hp ho).1
      (hasType_literal_of_retype htype)

end Resolved

/-- What is found in one subject by a validator whose checker was asked about some literals. -/
def reportsOn (ontology : Ontology) (config : ValidationConfig) (calls : List (String × String))
    (graph : DataGraph) (s : Term) : List Diagnostic :=
  match graph.index.get? s with
  | none => []
  | some predicates =>
    (validateSubject ontology config (contextFor ontology graph) graph.index (.afterCalls calls)
      (s, predicates)).1

theorem reportsOn_eq_nil_iff {calls : List (String × String)} {type : Term}
    (honly : OnlyType graph s type) :
    reportsOn ontology config calls graph s = [] ↔
      ∃ «class» definition, Conforms ontology config graph s «class» definition := by
  obtain ⟨predicates, hget⟩ := exists_get?_of_mem ((honly type).2 rfl)
  rw [reportsOn, hget]
  exact (validateSubject_spec ontology config hget (Xsd.Checker.sound_afterCalls calls)).1

/-- In an ontology that resolves without diagnostics a class stands for all classes above it: where
nothing is found in a subject, nothing is found when it is said to be of an upper class instead. -/
theorem reportsOn_retype (resolver : ResolverConfig) (document : OntologyDocument)
    (h : (Ontology.resolve resolver document).diagnostics = []) (lower upper : Iri)
    (hbelow : DeclaredBelow document (.resolve resolver document) lower upper)
    (config : ValidationConfig) (calls later : List (String × String)) (graph : DataGraph)
    (s : Term) (honly : OnlyType graph s (.iri lower)) (hself : ∀ p, ⟨s, p, s⟩ ∉ graph.triples)
    (hclean : reportsOn (.resolve resolver document) config calls graph s = []) :
    reportsOn (.resolve resolver document) config later (graph.retype s lower upper) s = [] := by
  obtain ⟨«class», definition, hconforms⟩ := (reportsOn_eq_nil_iff honly).1 hclean
  obtain rfl : «class» = lower := Term.iri.inj ((honly _).1 ((hconforms.only _).2 rfl))
  obtain ⟨inherited, hretyped⟩ := hconforms.retype h hbelow hself
  exact (reportsOn_eq_nil_iff (onlyType_retype honly)).2 ⟨upper, inherited, hretyped⟩

/-- A chain of three classes, of which the upper one needs a value of `"p"`. -/
def chainDocument : OntologyDocument where
  classes :=
    [Inheritance.boundedClass "A" Owl.minCardinality "1",
      { iri := "B", parents := ["A"] }, { iri := "C", parents := ["B"] }]

def chainGraph : DataGraph where
  triples := [⟨.iri "s", Rdf.type, .iri "C"⟩, ⟨.iri "s", "p", .literal ⟨"v", none⟩⟩]

theorem reportsOn_chainGraph :
    reportsOn (.resolve {} chainDocument) {} [] (chainGraph.retype (.iri "s") "C" "A") (.iri "s") =
      [] := by
  have hsilent : (Ontology.resolve {} chainDocument).diagnostics = [] := by decide +kernel
  have hplain (iri : Iri) (h : ∃ d ∈ chainDocument.classes, d.iri = iri)
      (hnone : (Ontology.resolve {} chainDocument).datatypeConstraints? iri = none) :
      PlainClass chainDocument (.resolve {} chainDocument) iri := by
    refine ⟨h, fun words hwords ↦ ?_⟩
    cases hnone.symm.trans (datatypeConstraints?_eq_some_iff.2 hwords)
  have hbelow : DeclaredBelow chainDocument (.resolve {} chainDocument) "C" "A" :=
    .step (d := { iri := "C", parents := ["B"] }) (hplain "C" (by decide) (by decide +kernel))
      (by decide) (by decide)
      (.step (d := { iri := "B", parents := ["A"] }) (hplain "B" (by decide) (by decide +kernel))
        (by decide) (by decide) (.refl (hplain "A" (by decide) (by decide +kernel))))
  have honly : OnlyType chainGraph (.iri "s") (.iri "C") := by
    intro o
    simp [chainGraph, Rdf.type]
  have hself (p : Iri) : ⟨.iri "s", p, .iri "s"⟩ ∉ chainGraph.triples := by
    simp [chainGraph]
  exact reportsOn_retype {} chainDocument hsilent "C" "A" hbelow {} [] [] chainGraph (.iri "s")
    honly hself (by decide +kernel)

end Validator

end OntologyGuard
