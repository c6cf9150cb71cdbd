import OntologyGuard.Proofs.Constraint.Accumulation
import OntologyGuard.Proofs.Constraint.LastRestriction
import OntologyGuard.Proofs.Text.Numeral
import Mathlib.Data.List.Nodup
import Mathlib.Data.List.Perm.Basic

namespace OntologyGuard

def Facet.role : Facet → Facet.Role
  | .cardinality bound qualified _ => .cardinality bound qualified
  | .range _ => .range

structure Requirement where
  min : Option UInt32 := none
  max : Option UInt32 := none
  range : Option Iri := none
  ordered : ∀ low high, min = some low → max = some high → low ≤ high

namespace Requirement

def facets (r : Requirement) : List Facet :=
  (r.min.map (.cardinality .min r.range.isSome)).toList ++
    (r.max.map (.cardinality .max r.range.isSome)).toList ++ (r.range.map .range).toList

def constraints (r : Requirement) («class» property : Iri) : PropertyConstraints where
  «class» := some «class»
  property := some property
  min := r.min
  max := r.max
  range := r.range
  qualified := if r.min.isSome ∨ r.max.isSome then some r.range.isSome else none

theorem filterMap_min? (r : Requirement) : r.facets.filterMap Facet.min? = r.min.toList := by
  obtain ⟨low, high, range, -⟩ := r
  cases low <;> cases high <;> cases range <;> rfl

theorem filterMap_max? (r : Requirement) : r.facets.filterMap Facet.max? = r.max.toList := by
  obtain ⟨low, high, range, -⟩ := r
  cases low <;> cases high <;> cases range <;> rfl

theorem filterMap_range? (r : Requirement) : r.facets.filterMap Facet.range? = r.range.toList := by
  obtain ⟨low, high, range, -⟩ := r
  cases low <;> cases high <;> cases range <;> rfl

theorem mem_filterMap_qualified? {r : Requirement} {q : Bool} :
    q ∈ r.facets.filterMap Facet.qualified? ↔ (r.min.isSome ∨ r.max.isSome) ∧ r.range.isSome = q := by
  obtain ⟨low, high, range, -⟩ := r
  cases low <;> cases high <;> cases range <;> simp [facets, Facet.qualified?]

variable («class» property : Iri)

theorem records_constraints (r : Requirement) : (r.constraints «class» property).Records r.facets where
  qualified q := by
    rw [mem_filterMap_qualified?]
    simp [constraints]
  range := r.filterMap_range?
  min n := by
    rw [filterMap_min?, Option.mem_toList]
    rfl
  max n := by
    rw [filterMap_max?, Option.mem_toList]
    rfl

theorem nodup_roles (r : Requirement) : (r.facets.map Facet.role).Nodup := by
  obtain ⟨low, high, range, -⟩ := r
  cases low <;> cases high <;> cases range <;> simp [facets, Facet.role]

theorem checkQualification_constraints (r : Requirement) :
    (r.constraints «class» property).checkQualification = [] := by
  obtain ⟨low, high, range, -⟩ := r
  cases low <;> cases high <;> cases range <;> rfl

theorem ofFacets_of_perm {r : Requirement} {facets : List Facet} (h : facets.Perm r.facets) :
    PropertyConstraints.ofFacets «class» property facets =
      (r.constraints «class» property, []) := by
  have hrecords := r.records_constraints «class» property
  have hsilent := PropertyConstraints.ofFacets_eq_nil «class» property
    ((hrecords.consistent r.ordered).of_perm h)
  have hkeeps := PropertyConstraints.ofFacets_keeps «class» property facets
  refine Prod.ext ?_ hsilent
  exact (PropertyConstraints.records_ofFacets hsilent).unique (hrecords.of_perm h)
    hkeeps.sameClass hkeeps.sameProperty

end Requirement

namespace Restriction

/-- How a restriction node is written: its label, the predicate of its range and the numerals of its
bounds. -/
structure Form where
  label : String
  rangePredicate : Iri
  onClassOrDataRange : rangePredicate = Owl.onClass ∨ rangePredicate = Owl.onDataRange
  numeral : CardinalityBound → UInt32 → Literal
  spells : ∀ bound n, Text.Numeral (numeral bound n).lexical.toList n.toNat

namespace Form

variable (form : Form)

def predicate : Facet → Iri
  | .cardinality .min false _ => Owl.minCardinality
  | .cardinality .max false _ => Owl.maxCardinality
  | .cardinality .exact false _ => Owl.cardinality
  | .cardinality .min true _ => Owl.minQualifiedCardinality
  | .cardinality .max true _ => Owl.maxQualifiedCardinality
  | .cardinality .exact true _ => Owl.qualifiedCardinality
  | .range _ => form.rangePredicate

def object : Facet → Term
  | .cardinality bound _ n => .literal (form.numeral bound n)
  | .range iri => .iri iri

def fact (f : Facet) : Iri × Term := (form.predicate f, form.object f)

def facts (property : Iri) (r : Requirement) : List (Iri × Term) :=
  (Rdf.type, .iri Owl.restriction) :: (Owl.onProperty, .iri property) :: r.facets.map form.fact

theorem ofPredicate?_predicate (f : Facet) :
    Facet.Role.ofPredicate? (form.predicate f) = some f.role := by
  cases f with
  | range iri =>
    have hrange : form.rangePredicate = Owl.onDataRange ∨ form.rangePredicate = Owl.onClass :=
      form.onClassOrDataRange.symm
    exact if_pos hrange
  | cardinality bound qualified n => cases bound <;> cases qualified <;> rfl

theorem cardinality?_numeral (bound : CardinalityBound) (n : UInt32) :
    cardinality? (.literal (form.numeral bound n)) = some n := by
  have hspells := form.spells bound n
  rw [cardinality?, Term.asLiteral?, Option.bind_some, hspells.trim_eq, hspells.word?_eq]

theorem facet_fact (f : Facet) : facet (form.fact f).1 (form.fact f).2 = .ok f := by
  have hrole : Facet.Role.ofPredicate? (form.fact f).1 = some f.role := form.ofPredicate?_predicate f
  unfold facet
  cases f with
  | range iri =>
    rw [hrole]
    rfl
  | cardinality bound qualified n =>
    rw [hrole]
    simp only [Facet.role, fact, object, cardinality?_numeral]

theorem predicate_ne (f : Facet) : form.predicate f ≠ Rdf.type ∧ form.predicate f ≠ Owl.onProperty := by
  have hrole := form.ofPredicate?_predicate f
  refine ⟨fun h ↦ ?_, fun h ↦ ?_⟩
  · have hnone : Facet.Role.ofPredicate? Rdf.type = none := by decide
    simp [h, hnone] at hrole
  · have hnone : Facet.Role.ofPredicate? Owl.onProperty = none := by decide
    simp [h, hnone] at hrole

theorem nodup_facts (property : Iri) (r : Requirement) :
    ((form.facts property r).map Prod.fst).Nodup := by
  have hpredicates : (r.facets.map form.predicate).Nodup := by
    refine List.Nodup.of_map Facet.Role.ofPredicate? ?_
    have hroles : Facet.Role.ofPredicate? ∘ form.predicate = some ∘ Facet.role :=
      funext form.ofPredicate?_predicate
    rw [List.map_map, hroles, ← List.map_map]
    exact r.nodup_roles.map (fun _ _ ↦ Option.some.inj)
  have hmap : r.facets.map (Prod.fst ∘ form.fact) = r.facets.map form.predicate := rfl
  rw [facts, List.map_cons, List.map_cons, List.map_map, hmap, List.nodup_cons, List.nodup_cons]
  refine ⟨?_, ?_, hpredicates⟩
  · have hne : Rdf.type ≠ Owl.onProperty := by decide
    simpa [hne] using fun f _ ↦ (form.predicate_ne f).1
  · simpa using fun f _ ↦ (form.predicate_ne f).2

theorem filter_facts (property : Iri) (r : Requirement) :
    ((form.facts property r).filter fun fact ↦ fact.1 ≠ Rdf.type ∧ fact.1 ≠ Owl.onProperty) =
      r.facets.map form.fact := by
  have hstated : ∀ fact ∈ r.facets.map form.fact,
      decide (fact.1 ≠ Rdf.type ∧ fact.1 ≠ Owl.onProperty) = true := by
    intro fact hfact
    obtain ⟨f, -, rfl⟩ := List.mem_map.1 hfact
    exact decide_eq_true (form.predicate_ne f)
  rw [facts, List.filter_cons_of_neg (by simp), List.filter_cons_of_neg (by simp),
    List.filter_eq_self.2 hstated]

end Form

def facet? (fact : Iri × Term) : Option Facet := (facet fact.1 fact.2).toOption

variable {«class» property p : Iri} {facts : List (Iri × Term)} {node : PredicateMap} {o : Term}

theorem foldl_addFact_of_facets (h : ∀ fact ∈ facts, ∃ f, facet fact.1 fact.2 = .ok f)
    (state : PropertyConstraints × List Diagnostic) :
    facts.foldl (addFact «class» property) state =
      (facts.filterMap facet?).foldl
        (fun state f ↦ (state.1.apply f).map id (state.2 ++ ·)) state := by
  induction facts generalizing state with
  | nil => rfl
  | cons fact rest ih =>
    obtain ⟨⟨f, hf⟩, hrest⟩ := List.forall_mem_cons.1 h
    have hfacet : facet? fact = some f := by rw [facet?, hf, Except.toOption]
    rw [List.filterMap_cons_some hfacet, List.foldl_cons, List.foldl_cons, ih hrest, addFact, hf]

theorem nodup_facts (node : PredicateMap) : (Restriction.facts node).Nodup := by
  have hkeys : node.entries.Pairwise fun a b ↦ a.1 ≠ b.1 := List.pairwise_map.1 node.nodup_keys
  refine List.pairwise_filterMap.2 (hkeys.imp fun {a b} hne fact hfact other hother ↦ ?_)
  obtain ⟨o, -, rfl⟩ := Option.map_eq_some_iff.1 hfact
  obtain ⟨o', -, rfl⟩ := Option.map_eq_some_iff.1 hother
  exact fun h ↦ hne (Prod.mk.inj h).1

section Node

variable {triples : List Triple} {s : Term} {stated : List (Iri × Term)}
  (hget : (TripleIndex.ofTriples triples).get? s = some node)
  (hstated : ∀ p o, ⟨s, p, o⟩ ∈ triples ↔ (p, o) ∈ stated)
  (hnodup : (stated.map Prod.fst).Nodup)

include hget hstated hnodup

theorem fact?_of_mem_stated (h : (p, o) ∈ stated) : fact? node p = some o := by
  refine (TripleIndex.single?_eq_some_iff hget).2 fun o' ↦ (hstated p o').trans ⟨fun h' ↦ ?_, ?_⟩
  · exact congrArg Prod.snd (List.inj_on_of_nodup_map hnodup h' h rfl)
  · rintro rfl
    exact h

theorem facts_perm_stated : (Restriction.facts node).Perm stated := by
  refine (List.perm_ext_iff_of_nodup (nodup_facts node) hnodup.of_map).2 fun ⟨p, o⟩ ↦ ?_
  rw [mem_facts]
  refine ⟨fun h ↦ ?_, fact?_of_mem_stated hget hstated hnodup⟩
  exact (hstated p o).1 (mem_triples_of_fact? hget h)

theorem ambiguities_of_stated : ambiguities «class» node = [] := by
  refine List.map_eq_nil_iff.2 (List.filter_eq_nil_iff.2 fun ⟨p, objects⟩ hentry ↦ ?_)
  have hobjects := OrderedMap.get?_eq_some_iff.2 hentry
  obtain ⟨o, ho⟩ := (TripleIndex.mem_predicates hget).1 (OrderedMap.mem_keys_iff.2 ⟨_, hobjects⟩)
  obtain ⟨objects', hobjects', hsingle⟩ := fact?_eq_some_iff.1
    (fact?_of_mem_stated hget hstated hnodup ((hstated p o).1 ho))
  obtain rfl := Option.some.inj (hobjects.symm.trans hobjects')
  simp [hsingle]

end Node

theorem filterMap_facet? (form : Form) (facets : List Facet) :
    (facets.map form.fact).filterMap facet? = facets := by
  have hsome : facet? ∘ form.fact = some := by
    funext f
    rw [Function.comp_apply, facet?, form.facet_fact, Except.toOption]
  rw [List.filterMap_map, hsome, List.filterMap_some]

theorem constraints_of_perm {form : Form} {r : Requirement}
    (h : (statedFacts node).Perm (r.facets.map form.fact)) :
    constraints «class» p node = (r.constraints «class» p, []) := by
  have hfacets : ∀ fact ∈ statedFacts node, ∃ f, facet fact.1 fact.2 = .ok f := by
    intro fact hfact
    obtain ⟨f, -, rfl⟩ := List.mem_map.1 (h.subset hfact)
    exact ⟨f, form.facet_fact f⟩
  have hofFacets := Requirement.ofFacets_of_perm «class» p
    (filterMap_facet? form r.facets ▸ h.filterMap facet?)
  rw [PropertyConstraints.ofFacets, PropertyConstraints.applyAll] at hofFacets
  rw [constraints_eq, foldl_addFact_of_facets hfacets, hofFacets, r.checkQualification_constraints,
    List.append_nil]

/-- A node that states the facts of a requirement and no others is read as the requirement. -/
theorem read_of_written {triples : List Triple} {s : Term} {form : Form} {r : Requirement}
    (hget : (TripleIndex.ofTriples triples).get? s = some node)
    (hstated : ∀ q o, ⟨s, q, o⟩ ∈ triples ↔ (q, o) ∈ form.facts p r) :
    property? node = some p ∧
      read «class» node = (some (p, r.constraints «class» p), []) := by
  have hnodup := form.nodup_facts p r
  have htype : fact? node Rdf.type = some (.iri Owl.restriction) :=
    fact?_of_mem_stated hget hstated hnodup List.mem_cons_self
  have hproperty : property? node = some p := property?_eq_some_iff.2
    (fact?_of_mem_stated hget hstated hnodup (.tail _ List.mem_cons_self))
  have hperm : (statedFacts node).Perm (r.facets.map form.fact) :=
    form.filter_facts p r ▸ (facts_perm_stated hget hstated hnodup).filter _
  refine ⟨hproperty, ?_⟩
  simp [read, htype, hproperty, constraints_of_perm hperm,
    ambiguities_of_stated hget hstated hnodup, Term.asIri?]

/-- The triples of requirements, with a blank node of its own for each property. -/
def written (requirements : OrderedMap Iri Requirement) (form : Iri → Form) : List Triple :=
  requirements.entries.flatMap fun entry ↦
    ((form entry.1).facts entry.1 entry.2).map fun fact ↦
      ⟨.blank (form entry.1).label, fact.1, fact.2⟩

theorem mem_written {requirements : OrderedMap Iri Requirement} {form : Iri → Form} {s : Term} :
    ⟨s, p, o⟩ ∈ written requirements form ↔ ∃ q r, requirements.get? q = some r ∧
      s = .blank (form q).label ∧ (p, o) ∈ (form q).facts q r := by
  simp only [written, List.mem_flatMap, List.mem_map, Triple.mk.injEq]
  constructor
  · rintro ⟨⟨q, r⟩, hentry, fact, hfact, rfl, rfl, rfl⟩
    exact ⟨q, r, OrderedMap.get?_eq_some_iff.2 hentry, rfl, hfact⟩
  · rintro ⟨q, r, hr, rfl, hfact⟩
    exact ⟨(q, r), OrderedMap.get?_eq_some_iff.1 hr, (p, o), hfact, rfl, rfl, rfl⟩

section Written

variable {requirements : OrderedMap Iri Requirement} {form : Iri → Form} {triples : List Triple}
  {r : Requirement} {s : Term}
  (hlabels : (requirements.keys.map fun p ↦ (form p).label).Nodup)
  (h : ∀ t : Triple, t.subject.isBlank = true →
    (t ∈ triples ↔ t ∈ written requirements form))

include hlabels h

theorem stated_of_written (hr : requirements.get? p = some r) (q : Iri) (o : Term) :
    ⟨.blank (form p).label, q, o⟩ ∈ triples ↔ (q, o) ∈ (form p).facts p r := by
  rw [h _ rfl, mem_written]
  constructor
  · rintro ⟨p', r', hr', hlabel, hfact⟩
    obtain rfl : p = p' := List.inj_on_of_nodup_map hlabels (OrderedMap.mem_keys_iff.2 ⟨r, hr⟩)
      (OrderedMap.mem_keys_iff.2 ⟨r', hr'⟩) (Term.blank.inj hlabel)
    obtain rfl := Option.some.inj (hr.symm.trans hr')
    exact hfact
  · exact fun hfact ↦ ⟨p, r, hr, rfl, hfact⟩

theorem read_subject («class» : Iri)
    (hget : (TripleIndex.ofTriples triples).get? s = some node)
    (hs : s.isBlank = true) : ∃ p r, requirements.get? p = some r ∧ s = .blank (form p).label ∧
      property? node = some p ∧ read «class» node = (some (p, r.constraints «class» p), []) := by
  obtain ⟨⟨_, q, o⟩, ht, rfl⟩ := TripleIndex.mem_subjects_ofTriples.1
    (OrderedMap.mem_keys_iff.2 ⟨node, hget⟩)
  obtain ⟨p, r, hr, rfl, -⟩ := mem_written.1 ((h _ hs).1 ht)
  exact ⟨p, r, hr, rfl, read_of_written hget (stated_of_written hlabels h hr)⟩

theorem get?_of_written (hr : requirements.get? p = some r) :
    (ClassConstraints.ofTriples «class» triples).1.get? p = some (r.constraints «class» p) := by
  have hstated := stated_of_written hlabels h hr
  obtain ⟨node, hget⟩ := TripleIndex.exists_get?_of_mem
    ((hstated Rdf.type (.iri Owl.restriction)).2 List.mem_cons_self)
  obtain ⟨before, after, hentries⟩ := List.append_of_mem (OrderedMap.get?_eq_some_iff.1 hget)
  rw [ClassConstraints.ofTriples, hentries]
  refine ClassConstraints.get?_foldl_addSubject_of_read rfl (read_of_written hget hstated).2 ?_
  intro subject hsubject hblank hp
  have hmem : subject ∈ (TripleIndex.ofTriples triples).subjects.entries := by
    rw [hentries]
    exact List.mem_append_right _ (.tail _ hsubject)
  obtain ⟨p', -, -, hs, hp', -⟩ :=
    read_subject hlabels h «class» (OrderedMap.get?_eq_some_iff.2 hmem) hblank
  obtain rfl := Option.some.inj (hp'.symm.trans hp)
  have hlt := TripleIndex.mention_lt_of_entries hentries hsubject
  rw [hs] at hlt
  exact absurd hlt (Nat.lt_irrefl _)

end Written

end Restriction

namespace ClassConstraints

open Restriction

/-- Restriction nodes that state requirements, in any order of the triples, with any repetitions and
among any triples about other subjects, are read back without a report. -/
theorem ofTriples_written («class» : Iri) (requirements : OrderedMap Iri Requirement)
    (form : Iri → Form) (hlabels : (requirements.keys.map fun p ↦ (form p).label).Nodup)
    (triples : List Triple) (h : ∀ t : Triple, t.subject.isBlank = true →
      (t ∈ triples ↔ t ∈ written requirements form)) :
    (ofTriples «class» triples).2 = [] ∧ (ofTriples «class» triples).1.class = «class» ∧
      ∀ p, (ofTriples «class» triples).1.get? p =
        (requirements.get? p).map fun r ↦ r.constraints «class» p := by
  refine ⟨?_, class_foldl_addSubject _ _, fun p ↦ ?_⟩
  · refine foldl_addSubject_eq_nil_iff.2 ⟨rfl, fun subject hsubject hblank ↦ ?_⟩
    obtain ⟨p, r, -, -, -, hread⟩ :=
      read_subject hlabels h «class» (OrderedMap.get?_eq_some_iff.2 hsubject) hblank
    exact congrArg Prod.snd hread
  cases hr : requirements.get? p with
  | some r => exact get?_of_written hlabels h hr
  | none =>
    refine get?_foldl_addSubject_of_ne fun subject hsubject hblank hp ↦ ?_
    obtain ⟨p', r, hr', -, hp', -⟩ :=
      read_subject hlabels h «class» (OrderedMap.get?_eq_some_iff.2 hsubject) hblank
    obtain rfl := Option.some.inj (hp'.symm.trans hp)
    cases hr.symm.trans hr'

/-- A range with both bounds, a lower bound alone, and a property of which nothing is required. -/
def threeRequirements : OrderedMap Iri Requirement where
  entries :=
    [("p", ⟨some 1, some 5, some "R", by rintro low high ⟨⟩ ⟨⟩; decide⟩),
      ("q", { min := some 2, ordered := by rintro low high - ⟨⟩ }),
      ("r", { ordered := by rintro low high ⟨⟩ })]
  nodup_keys := by decide

def plainForm (p : Iri) : Form where
  label := p
  rangePredicate := Owl.onClass
  onClassOrDataRange := .inl rfl
  numeral _ n := ⟨n.toNat.repr, some Xsd.integer⟩
  spells _ n := Text.numeral_repr n.toNat

theorem ofTriples_threeRequirements :
    (ofTriples "C" (⟨.iri "C", Rdf.type, .iri "T"⟩ ::
        (written threeRequirements plainForm).reverse)).2 = [] ∧
      (ofTriples "C" (⟨.iri "C", Rdf.type, .iri "T"⟩ ::
        (written threeRequirements plainForm).reverse)).1.class = "C" ∧
      ∀ p, (ofTriples "C" (⟨.iri "C", Rdf.type, .iri "T"⟩ ::
          (written threeRequirements plainForm).reverse)).1.get? p =
        (threeRequirements.get? p).map fun r ↦ r.constraints "C" p := by
  refine ofTriples_written "C" threeRequirements plainForm (by decide) _ fun t ht ↦ ?_
  have hne : t ≠ ⟨.iri "C", Rdf.type, .iri "T"⟩ := by
    rintro rfl
    cases ht
  simp [hne]

end ClassConstraints

end OntologyGuard
