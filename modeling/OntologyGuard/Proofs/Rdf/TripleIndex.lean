import OntologyGuard.Proofs.Data.OrderedMap
import OntologyGuard.Rdf.TripleIndex

namespace OntologyGuard.TripleIndex

variable {triples : List Triple} {s : Term} {p : Iri} {o : Term} {predicates : PredicateMap}

/-- The objects that triples give a subject and a predicate, with repetitions. -/
def objectsOf (triples : List Triple) (s : Term) (p : Iri) : List Term :=
  (triples.filter fun t ↦ t.subject = s ∧ t.predicate = p).map (·.object)

theorem mem_objectsOf : o ∈ objectsOf triples s p ↔ ⟨s, p, o⟩ ∈ triples := by
  simp only [objectsOf, List.mem_map, List.mem_filter, decide_eq_true_eq]
  constructor
  · rintro ⟨t, ⟨ht, rfl, rfl⟩, rfl⟩
    exact ht
  · exact fun ht ↦ ⟨_, ⟨ht, rfl, rfl⟩, rfl⟩

def addObject : PredicateMap → Triple → PredicateMap :=
  OrderedMap.collect (fun t ↦ t.predicate) .empty fun objects t ↦ objects.push t.object

theorem subjects_ofTriples (triples : List Triple) :
    (ofTriples triples).subjects =
      triples.foldl (OrderedMap.collect (fun t ↦ t.subject) .empty addObject) .empty := by
  have h (index : TripleIndex) : (triples.foldl insert index).subjects =
      triples.foldl (OrderedMap.collect (fun t ↦ t.subject) .empty addObject) index.subjects := by
    induction triples generalizing index with
    | nil => rfl
    | cons t rest ih => exact ih _
  exact h {}

theorem mem_subjects_ofTriples :
    s ∈ (ofTriples triples).subjects.keys ↔ ∃ t ∈ triples, t.subject = s := by
  rw [subjects_ofTriples, OrderedMap.mem_keys_foldl_collect]
  simp [OrderedMap.keys, OrderedMap.empty]

/-- Triples about other subjects are indexed behind what is there, as they would be by themselves. -/
theorem entries_ofTriples_append {front back : List Triple}
    (h : ∀ t ∈ front, ∀ u ∈ back, t.subject ≠ u.subject) :
    (ofTriples (front ++ back)).subjects.entries =
      (ofTriples front).subjects.entries ++ (ofTriples back).subjects.entries := by
  rw [subjects_ofTriples, List.foldl_append, ← subjects_ofTriples, subjects_ofTriples back]
  apply OrderedMap.entries_foldl_collect_append
  · exact (List.append_nil _).symm
  · intro u hu hmem
    obtain ⟨t, ht, heq⟩ := mem_subjects_ofTriples.1 hmem
    exact h t ht u hu heq

def mention (triples : List Triple) (s : Term) : Nat := (triples.map (·.subject)).idxOf s

theorem pairwise_mention (triples : List Triple) :
    (ofTriples triples).subjects.keys.Pairwise fun s r ↦ mention triples s < mention triples r := by
  have hkeys : (DistinctList.empty : DistinctList Term).toList =
      (.empty : OrderedMap Term PredicateMap).keys := rfl
  rw [subjects_ofTriples, OrderedMap.keys_foldl_collect _ _ _ hkeys]
  exact DistinctList.pairwise_ofList (triples.map (·.subject))

theorem mention_lt_of_entries {before after : List (Term × PredicateMap)}
    {entry later : Term × PredicateMap}
    (h : (ofTriples triples).subjects.entries = before ++ entry :: after) (hmem : later ∈ after) :
    mention triples entry.1 < mention triples later.1 := by
  have horder := pairwise_mention triples
  rw [OrderedMap.keys, h, List.map_append, List.pairwise_append, List.map_cons,
    List.pairwise_cons] at horder
  exact horder.2.1.1 later.1 (List.mem_map_of_mem hmem)

theorem predicates_eq_foldl (h : (ofTriples triples).get? s = some predicates) :
    predicates = (triples.filter fun t ↦ t.subject = s).foldl addObject .empty := by
  have hfold := OrderedMap.getD_get?_foldl_collect (fun t : Triple ↦ t.subject) .empty addObject
    triples .empty s
  rw [← subjects_ofTriples, show (ofTriples triples).subjects.get? s = some predicates from h]
    at hfold
  exact hfold

theorem mem_predicates (h : (ofTriples triples).get? s = some predicates) :
    p ∈ predicates.keys ↔ ∃ o, ⟨s, p, o⟩ ∈ triples := by
  rw [predicates_eq_foldl h, addObject, OrderedMap.mem_keys_foldl_collect]
  constructor
  · rintro (hp | ⟨t, ht, rfl⟩)
    · cases hp
    · obtain ⟨hmem, hs⟩ := List.mem_filter.1 ht
      obtain rfl := of_decide_eq_true hs
      exact ⟨t.object, hmem⟩
  · rintro ⟨o, ht⟩
    exact .inr ⟨_, List.mem_filter.2 ⟨ht, decide_eq_true rfl⟩, rfl⟩

theorem objects_eq_ofList (h : (ofTriples triples).get? s = some predicates) {objects : ObjectSet}
    (hobjects : predicates.get? p = some objects) : objects = .ofList (objectsOf triples s p) := by
  have hfold : (predicates.get? p).getD .empty =
      ((triples.filter fun t ↦ t.subject = s).filter fun t ↦ t.predicate = p).foldl
        (fun objects t ↦ objects.push t.object) .empty := by
    rw [predicates_eq_foldl h]
    exact OrderedMap.getD_get?_foldl_collect (fun t : Triple ↦ t.predicate)
      (.empty : ObjectSet) _ _ .empty p
  have hfilter : (triples.filter fun t ↦ t.subject = s).filter (fun t ↦ t.predicate = p) =
      triples.filter fun t ↦ t.subject = s ∧ t.predicate = p := by
    rw [List.filter_filter]
    congr 1
    funext t
    simp [and_comm]
  rw [hobjects, hfilter] at hfold
  rw [DistinctList.ofList, DistinctList.append, objectsOf, List.foldl_map]
  exact hfold

theorem mem_objects (h : (ofTriples triples).get? s = some predicates) {objects : ObjectSet}
    (hobjects : predicates.get? p = some objects) : o ∈ objects ↔ ⟨s, p, o⟩ ∈ triples := by
  rw [objects_eq_ofList h hobjects, DistinctList.mem_ofList, mem_objectsOf]

theorem single?_eq_some_iff (h : (ofTriples triples).get? s = some predicates) :
    (predicates.get? p).bind (·.single?) = some o ↔ ∀ o', ⟨s, p, o'⟩ ∈ triples ↔ o' = o := by
  cases hobjects : predicates.get? p with
  | none =>
    refine iff_of_false (by simp) fun honly ↦ ?_
    obtain ⟨objects, hget⟩ := OrderedMap.mem_keys_iff.1 ((mem_predicates h).2 ⟨o, (honly o).2 rfl⟩)
    cases hobjects.symm.trans hget
  | some objects =>
    rw [Option.bind_some, DistinctList.single?_eq_some_iff, DistinctList.toList_eq_singleton_iff]
    exact forall_congr' fun o' ↦ by rw [mem_objects h hobjects]

theorem exists_get?_of_mem (h : ⟨s, p, o⟩ ∈ triples) :
    ∃ predicates, (ofTriples triples).get? s = some predicates :=
  OrderedMap.mem_keys_iff.1 (mem_subjects_ofTriples.2 ⟨_, h, rfl⟩)

end OntologyGuard.TripleIndex
