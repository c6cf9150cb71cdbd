import OntologyGuard.Proofs.Constraint.Reading
import OntologyGuard.Proofs.Rdf.TripleIndex

namespace OntologyGuard

namespace Restriction

variable {«class» p : Iri} {node : PredicateMap}

theorem read_of_reports_eq_nil (h : (read «class» node).2 = []) :
    ambiguities «class» node = [] ∧ ∃ p, property? node = some p ∧
      (constraints «class» p node).2 = [] ∧
      read «class» node = (some (p, (constraints «class» p node).1), []) := by
  unfold read at h ⊢
  dsimp only at h ⊢
  split at h
  · simp at h
  next htype =>
    rw [if_neg htype]
    cases hproperty : property? node with
    | none => simp [hproperty] at h
    | some p =>
      simp only [hproperty] at h
      obtain ⟨hambiguous, hfound⟩ := List.append_eq_nil_iff.1 h
      refine ⟨hambiguous, p, rfl, hfound, ?_⟩
      simp [hambiguous, hfound]

theorem single?_of_ambiguities_eq_nil (h : ambiguities «class» node = []) {objects : ObjectSet}
    (hobjects : node.get? p = some objects) : ∃ o, objects.single? = some o := by
  have hmem := OrderedMap.get?_eq_some_iff.1 hobjects
  have hnone := List.filter_eq_nil_iff.1 (List.map_eq_nil_iff.1 h) _ hmem
  rwa [Bool.not_eq_true, Option.isNone_eq_false_iff, Option.isSome_iff_exists] at hnone

theorem fact?_eq_some_iff {o : Term} :
    fact? node p = some o ↔ ∃ objects, node.get? p = some objects ∧ objects.single? = some o :=
  Option.bind_eq_some_iff

theorem mem_facts {o : Term} : (p, o) ∈ facts node ↔ fact? node p = some o := by
  rw [fact?_eq_some_iff]
  simp only [facts, List.mem_filterMap, Option.map_eq_some_iff, Prod.mk.injEq,
    OrderedMap.get?_eq_some_iff]
  constructor
  · rintro ⟨⟨q, objects⟩, hmem, o', hsingle, rfl, rfl⟩
    exact ⟨objects, hmem, hsingle⟩
  · rintro ⟨objects, hmem, hsingle⟩
    exact ⟨(p, objects), hmem, o, hsingle, rfl, rfl⟩

theorem property?_eq_some_iff : property? node = some p ↔
    fact? node Owl.onProperty = some (.iri p) := by
  rw [property?, Option.bind_eq_some_iff]
  constructor
  · rintro ⟨o, ho, hiri⟩
    cases o with
    | iri q =>
      cases hiri
      exact ho
    | _ => cases hiri
  · exact fun h ↦ ⟨_, h, rfl⟩

section Index

variable {triples : List Triple} {s o : Term}

theorem mem_triples_of_fact? (h : (TripleIndex.ofTriples triples).get? s = some node)
    (hfact : fact? node p = some o) : ⟨s, p, o⟩ ∈ triples := by
  obtain ⟨objects, hobjects, hsingle⟩ := fact?_eq_some_iff.1 hfact
  refine (TripleIndex.mem_objects h hobjects).1 ?_
  rw [DistinctList.mem_def, DistinctList.single?_eq_some_iff.1 hsingle]
  exact List.mem_cons_self

theorem fact?_of_mem_triples (h : (TripleIndex.ofTriples triples).get? s = some node)
    (hambiguous : ambiguities «class» node = []) (ho : ⟨s, p, o⟩ ∈ triples) :
    fact? node p = some o := by
  obtain ⟨objects, hobjects⟩ := OrderedMap.mem_keys_iff.1 ((TripleIndex.mem_predicates h).2 ⟨o, ho⟩)
  obtain ⟨o', hsingle⟩ := single?_of_ambiguities_eq_nil hambiguous hobjects
  have hmem := (TripleIndex.mem_objects h hobjects).2 ho
  rw [DistinctList.mem_def, DistinctList.single?_eq_some_iff.1 hsingle, List.mem_singleton] at hmem
  exact fact?_eq_some_iff.2 ⟨objects, hobjects, hmem ▸ hsingle⟩

end Index

end Restriction

namespace ClassConstraints

variable {subjects : List (Term × PredicateMap)} {state : ClassConstraints × List Diagnostic}
  {p : Iri}

theorem class_addSubject (state : ClassConstraints × List Diagnostic)
    (subject : Term × PredicateMap) : (addSubject state subject).1.class = state.1.class := by
  unfold addSubject
  split
  · split <;> rfl
  · rfl

theorem addSubject_of_isBlank {subject : Term × PredicateMap} (h : subject.1.isBlank = true) :
    (addSubject state subject).2 =
      state.2 ++ (Restriction.read state.1.class subject.2).2 := by
  unfold addSubject
  rw [if_pos h]
  split
  next hread => rw [hread]
  next hread => rw [hread]

theorem foldl_addSubject_eq_nil_iff : (subjects.foldl addSubject state).2 = [] ↔
    state.2 = [] ∧ ∀ subject ∈ subjects, subject.1.isBlank = true →
      (Restriction.read state.1.class subject.2).2 = [] := by
  induction subjects generalizing state with
  | nil => simp
  | cons subject rest ih =>
    rw [List.foldl_cons, ih, class_addSubject, List.forall_mem_cons]
    by_cases hblank : subject.1.isBlank = true
    · rw [addSubject_of_isBlank hblank, List.append_eq_nil_iff, and_assoc]
      simp [hblank]
    · have hskip : addSubject state subject = state := if_neg hblank
      simp [hskip, hblank]

theorem foldl_addSubject_eq_nil (h : (subjects.foldl addSubject state).2 = []) :
    state.2 = [] ∧ ∀ subject ∈ subjects, subject.1.isBlank = true →
      (Restriction.read state.1.class subject.2).2 = [] :=
  foldl_addSubject_eq_nil_iff.1 h

theorem get?_addSubject_of_ne {subject : Term × PredicateMap}
    (h : subject.1.isBlank = true → Restriction.property? subject.2 ≠ some p) :
    (addSubject state subject).1.get? p = state.1.get? p := by
  unfold addSubject
  split
  next hblank =>
    split
    next q pc found hread =>
      have hproperty := (Restriction.read_eq_some (congrArg Prod.fst hread)).1
      have hne : p ≠ q := by
        rintro rfl
        exact h hblank hproperty
      rw [get?_set, if_neg hne]
    next => rfl
  next => rfl

theorem get?_addSubject_of_read {subject : Term × PredicateMap} (h : subject.1.isBlank = true)
    {pc : PropertyConstraints} {found : List Diagnostic}
    (hread : Restriction.read state.1.class subject.2 = (some (p, pc), found)) :
    (addSubject state subject).1.get? p = some pc := by
  unfold addSubject
  rw [if_pos h, hread]
  exact (get?_set _ _ _ _).trans (if_pos rfl)

theorem get?_foldl_addSubject_of_ne
    (h : ∀ subject ∈ subjects, subject.1.isBlank = true →
      Restriction.property? subject.2 ≠ some p) :
    (subjects.foldl addSubject state).1.get? p = state.1.get? p := by
  induction subjects generalizing state with
  | nil => rfl
  | cons subject rest ih =>
    obtain ⟨hsubject, hrest⟩ := List.forall_mem_cons.1 h
    rw [List.foldl_cons, ih hrest, get?_addSubject_of_ne hsubject]

theorem class_foldl_addSubject (subjects : List (Term × PredicateMap))
    (state : ClassConstraints × List Diagnostic) :
    (subjects.foldl addSubject state).1.class = state.1.class := by
  induction subjects generalizing state with
  | nil => rfl
  | cons subject rest ih => exact (ih _).trans (class_addSubject state subject)

/-- What a node says of its property is what counts in the end, when no later node is about that
property. -/
theorem get?_foldl_addSubject_of_read {before after : List (Term × PredicateMap)} {node : Term}
    {predicates : PredicateMap} {pc : PropertyConstraints} {found : List Diagnostic}
    (hblank : node.isBlank = true)
    (hread : Restriction.read state.1.class predicates = (some (p, pc), found))
    (hlast : ∀ subject ∈ after, subject.1.isBlank = true →
      Restriction.property? subject.2 ≠ some p) :
    ((before ++ (node, predicates) :: after).foldl addSubject state).1.get? p = some pc := by
  rw [List.foldl_append, List.foldl_cons, get?_foldl_addSubject_of_ne hlast]
  rw [← class_foldl_addSubject before state] at hread
  exact get?_addSubject_of_read hblank hread

theorem get?_foldl_addSubject_of_last {before after : List (Term × PredicateMap)} {node : Term}
    {predicates : PredicateMap}
    (h : ((before ++ (node, predicates) :: after).foldl addSubject state).2 = [])
    (hblank : node.isBlank = true) (hproperty : Restriction.property? predicates = some p)
    (hlast : ∀ subject ∈ after, subject.1.isBlank = true →
      Restriction.property? subject.2 ≠ some p) :
    Restriction.ambiguities state.1.class predicates = [] ∧
      (Restriction.constraints state.1.class p predicates).2 = [] ∧
      ((before ++ (node, predicates) :: after).foldl addSubject state).1.get? p =
        some (Restriction.constraints state.1.class p predicates).1 := by
  have hread := (foldl_addSubject_eq_nil h).2 (node, predicates)
    (List.mem_append_right _ List.mem_cons_self) hblank
  obtain ⟨hambiguous, q, hq, hfound, hread⟩ := Restriction.read_of_reports_eq_nil hread
  obtain rfl := Option.some.inj (hq.symm.trans hproperty)
  exact ⟨hambiguous, hfound, get?_foldl_addSubject_of_read hblank hread hlast⟩

/-- A class that is read without a report has, for each restriction that is the last one about its
property, constraints that imply all that the restriction states. -/
theorem implied_of_last_restriction («class» : Iri) (triples : List Triple)
    (h : (ofTriples «class» triples).2 = []) (node : Term) (p : Iri)
    (hblank : node.isBlank = true) (hproperty : ⟨node, Owl.onProperty, .iri p⟩ ∈ triples)
    (hlast : ∀ other : Term, other.isBlank = true → ⟨other, Owl.onProperty, .iri p⟩ ∈ triples →
      TripleIndex.mention triples other ≤ TripleIndex.mention triples node) :
    ∃ c, (ofTriples «class» triples).1.get? p = some c ∧
      ∀ predicate object, ⟨node, predicate, object⟩ ∈ triples → predicate ≠ Rdf.type →
        predicate ≠ Owl.onProperty →
        ∃ f, Restriction.facet predicate object = .ok f ∧ f.ImpliedBy c := by
  obtain ⟨predicates, hget⟩ := OrderedMap.mem_keys_iff.1
    (TripleIndex.mem_subjects_ofTriples.2 ⟨_, hproperty, rfl⟩)
  obtain ⟨before, after, hentries⟩ := List.append_of_mem (OrderedMap.get?_eq_some_iff.1 hget)
  have hread := (foldl_addSubject_eq_nil h).2 (node, predicates)
    (OrderedMap.get?_eq_some_iff.1 hget) hblank
  have hambiguous := (Restriction.read_of_reports_eq_nil hread).1
  have hafter : ∀ subject ∈ after, subject.1.isBlank = true →
      Restriction.property? subject.2 ≠ some p := by
    intro subject hsubject hblank' hp
    have hmem : subject ∈ (TripleIndex.ofTriples triples).subjects.entries := by
      rw [hentries]
      exact List.mem_append_right _ (.tail _ hsubject)
    have hle := hlast subject.1 hblank' (Restriction.mem_triples_of_fact?
      (OrderedMap.get?_eq_some_iff.2 hmem) (Restriction.property?_eq_some_iff.1 hp))
    have hlt := TripleIndex.mention_lt_of_entries hentries hsubject
    exact absurd hle (Nat.not_le.2 hlt)
  have hown := Restriction.property?_eq_some_iff.2
    (Restriction.fact?_of_mem_triples hget hambiguous hproperty)
  rw [ofTriples, hentries] at h ⊢
  obtain ⟨-, hfound, hresult⟩ := get?_foldl_addSubject_of_last h hblank hown hafter
  refine ⟨_, hresult, fun predicate object ho htype honProperty ↦ ?_⟩
  refine Restriction.constraints_impliedBy hfound (predicate, object) (List.mem_filter.2 ⟨?_, ?_⟩)
  · exact Restriction.mem_facts.2 (Restriction.fact?_of_mem_triples hget hambiguous ho)
  · exact decide_eq_true ⟨htype, honProperty⟩

/-- Two nodes about one property, the first with a lower and the second with an upper bound. -/
def twoRestrictions : List Triple :=
  [⟨.blank "a", Rdf.type, .iri Owl.restriction⟩, ⟨.blank "a", Owl.onProperty, .iri "p"⟩,
    ⟨.blank "a", Owl.minCardinality, .literal ⟨"1", none⟩⟩,
    ⟨.blank "b", Rdf.type, .iri Owl.restriction⟩, ⟨.blank "b", Owl.onProperty, .iri "p"⟩,
    ⟨.blank "b", Owl.maxCardinality, .literal ⟨"5", none⟩⟩]

theorem implied_twoRestrictions :
    ∃ c, (ofTriples "C" twoRestrictions).1.get? "p" = some c ∧
      ∀ predicate object, ⟨.blank "b", predicate, object⟩ ∈ twoRestrictions →
        predicate ≠ Rdf.type → predicate ≠ Owl.onProperty →
        ∃ f, Restriction.facet predicate object = .ok f ∧ f.ImpliedBy c := by
  refine implied_of_last_restriction "C" twoRestrictions (by decide +kernel) (.blank "b") "p" rfl
    (by decide) ?_
  intro other _ hother
  obtain rfl | rfl : other = .blank "a" ∨ other = .blank "b" := by
    simpa [twoRestrictions, Owl.onProperty, Rdf.type, Owl.minCardinality, Owl.maxCardinality]
      using hother
  · decide
  · decide

/-- An earlier restriction about the same property is lost without a report. -/
theorem not_implied_of_earlier_restriction :
    ¬ ∀ («class» : Iri) (triples : List Triple), (ofTriples «class» triples).2 = [] →
      ∀ node p, node.isBlank = true → ⟨node, Rdf.type, .iri Owl.restriction⟩ ∈ triples →
      ⟨node, Owl.onProperty, .iri p⟩ ∈ triples → ∀ predicate object f,
      ⟨node, predicate, object⟩ ∈ triples → Restriction.facet predicate object = .ok f →
      ∃ c, (ofTriples «class» triples).1.get? p = some c ∧ f.ImpliedBy c := by
  intro h
  have hrole : Facet.Role.ofPredicate? Owl.minCardinality = some (.cardinality .min false) := by
    decide
  have hword : Restriction.cardinality? (.literal ⟨"1", none⟩) = some 1 := by decide +kernel
  have hfacet : Restriction.facet Owl.minCardinality (.literal ⟨"1", none⟩) =
      .ok (.cardinality .min false 1) := by
    simp only [Restriction.facet, hrole, hword]
  obtain ⟨c, hc, k, hk, -⟩ := h "C" twoRestrictions (by decide +kernel) (.blank "a") "p" rfl
    (by decide) (by decide) Owl.minCardinality _ _ (by decide) hfacet
  have hmin : ((ofTriples "C" twoRestrictions).1.get? "p").bind (·.min) = none := by decide +kernel
  rw [hc, Option.bind_some, hk] at hmin
  cases hmin

end ClassConstraints

end OntologyGuard
