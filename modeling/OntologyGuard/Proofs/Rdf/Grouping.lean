import Mathlib.Data.Finset.Card
import OntologyGuard.Proofs.Data.Rebuilding
import OntologyGuard.Proofs.Rdf.TripleIndex

/-!
The index of a list of triples loses nothing but repetitions. It has the triples of the list and no others,
every group of it is in the order of first occurrence, and the triples that are read back from it are
indexed as the list is.
-/

namespace OntologyGuard

universe u v

namespace DistinctList

variable {α : Type u} {members occurrences : List α}

/-- The members are what occurs, once each and in the order of the first occurrence. -/
structure FirstOccurrences [DecidableEq α] (members occurrences : List α) : Prop where
  nodup : members.Nodup
  mem_iff : ∀ a, a ∈ members ↔ a ∈ occurrences
  ordered : members.Pairwise fun a b ↦ occurrences.idxOf a < occurrences.idxOf b

variable [DecidableEq α]

theorem firstOccurrences_ofList (occurrences : List α) :
    FirstOccurrences (ofList occurrences).toList occurrences where
  nodup := (ofList occurrences).nodup
  mem_iff _ := mem_ofList
  ordered := pairwise_ofList occurrences

theorem FirstOccurrences.length_eq (h : FirstOccurrences members occurrences) :
    members.length = occurrences.toFinset.card := by
  rw [← List.toFinset_card_of_nodup h.nodup]
  congr 1
  ext a
  rw [List.mem_toFinset, List.mem_toFinset, h.mem_iff]

end DistinctList

namespace OrderedMap

variable {κ : Type u} {ν α : Type v} [DecidableEq κ] {keyOf : α → κ} {default : ν} {f : ν → α → ν}

theorem entries_foldl_collect_of_key {items : List α} {key : κ} (h : ∀ item ∈ items, keyOf item = key)
    {m : OrderedMap κ ν} {value : ν} (hm : m.entries = [(key, value)]) :
    (items.foldl (collect keyOf default f) m).entries = [(key, items.foldl f value)] := by
  induction items generalizing m value with
  | nil => exact hm
  | cons item rest ih =>
    obtain ⟨hitem, hrest⟩ := List.forall_mem_cons.1 h
    refine ih hrest ?_
    simp [collect, update, insert, get?, place, hm, hitem]

/-- What makes the items of a block give back the entry that it stands for. -/
structure Unfolds (keyOf : α → κ) (default : ν) (f : ν → α → ν) (entry : κ × ν) (block : List α) :
    Prop where
  ne_nil : block ≠ []
  key : ∀ item ∈ block, keyOf item = entry.1
  value : block.foldl f default = entry.2

theorem Unfolds.entries_foldl_collect {entry : κ × ν} {block : List α}
    (h : Unfolds keyOf default f entry block) :
    (block.foldl (collect keyOf default f) empty).entries = [entry] := by
  obtain ⟨item, rest, rfl⟩ := List.exists_cons_of_ne_nil h.ne_nil
  obtain ⟨hitem, hrest⟩ := List.forall_mem_cons.1 h.key
  have hfirst : (collect keyOf default f empty item).entries = [(entry.1, f default item)] := by
    simp [collect, update, insert, get?, place, empty, hitem]
  rw [List.foldl_cons, entries_foldl_collect_of_key hrest hfirst]
  exact congrArg (fun value ↦ [(entry.1, value)]) h.value

/-- Entries that are taken apart into items, block after block, are collected again in their order. -/
theorem foldl_collect_flatMap {m : OrderedMap κ ν} {block : κ × ν → List α}
    (h : ∀ entry ∈ m.entries, Unfolds keyOf default f entry (block entry)) :
    (m.entries.flatMap block).foldl (collect keyOf default f) empty = m := by
  obtain ⟨entries, hnodup⟩ := m
  refine ext_entries ?_
  induction entries with
  | nil => rfl
  | cons entry rest ih =>
    obtain ⟨hhead, hrest⟩ := List.nodup_cons.1 (List.map_cons ▸ hnodup)
    obtain ⟨hentry, hmore⟩ := List.forall_mem_cons.1 h
    have hfirst : (block entry).foldl (collect keyOf default f) empty =
        ⟨[entry], List.nodup_singleton _⟩ := ext_entries hentry.entries_foldl_collect
    rw [List.flatMap_cons, List.foldl_append, hfirst]
    have hnew : ∀ item ∈ rest.flatMap block, keyOf item ∉ [entry].map Prod.fst := by
      intro item hitem hkey
      obtain ⟨later, hlater, hblock⟩ := List.mem_flatMap.1 hitem
      have hsame : later.1 = entry.1 := ((hmore later hlater).key item hblock).symm.trans (List.mem_singleton.1 hkey)
      exact hhead (hsame ▸ List.mem_map_of_mem hlater)
    have hentries : (⟨[entry], List.nodup_singleton _⟩ : OrderedMap κ ν).entries =
        [entry] ++ (empty : OrderedMap κ ν).entries := rfl
    rw [entries_foldl_collect_append keyOf default f hentries hnew, ih hrest hmore]
    rfl

end OrderedMap

namespace TripleIndex

open DistinctList (FirstOccurrences firstOccurrences_ofList)

variable {index : TripleIndex} {triples : List Triple} {s : Term} {p : Iri} {o : Term}
  {predicates : PredicateMap} {objects : ObjectSet}

/-- The triples of an index in the order in which it lists its groups. -/
def toTriples (index : TripleIndex) : List Triple :=
  index.subjects.entries.flatMap fun (subject, predicates) ↦
    predicates.entries.flatMap fun (predicate, objects) ↦
      objects.toList.map fun object ↦ ⟨subject, predicate, object⟩

/-- Every subject has predicates, and each of them has objects. -/
def Occupied (index : TripleIndex) : Prop :=
  ∀ entry ∈ index.subjects.entries, entry.2.entries ≠ [] ∧
    ∀ group ∈ entry.2.entries, group.2.toList ≠ []

theorem objects?_eq_some_iff : index.objects? s p = some objects ↔
    ∃ predicates, index.get? s = some predicates ∧ predicates.get? p = some objects :=
  Option.bind_eq_some_iff

theorem mem_objects?_ofTriples : (∃ objects, (ofTriples triples).objects? s p = some objects ∧ o ∈ objects) ↔
    ⟨s, p, o⟩ ∈ triples := by
  constructor
  · rintro ⟨objects, hobjects, ho⟩
    obtain ⟨predicates, hpredicates, hget⟩ := objects?_eq_some_iff.1 hobjects
    exact (mem_objects hpredicates hget).1 ho
  · intro ht
    obtain ⟨predicates, hpredicates⟩ := exists_get?_of_mem ht
    obtain ⟨objects, hget⟩ := OrderedMap.mem_keys_iff.1 ((mem_predicates hpredicates).2 ⟨o, ht⟩)
    have hobjects := objects?_eq_some_iff.2 ⟨predicates, hpredicates, hget⟩
    exact ⟨objects, hobjects, (mem_objects hpredicates hget).2 ht⟩

theorem firstOccurrences_subjects (triples : List Triple) :
    FirstOccurrences (ofTriples triples).subjects.keys (triples.map (·.subject)) := by
  have hkeys : (DistinctList.empty : DistinctList Term).toList = (.empty : OrderedMap Term PredicateMap).keys := rfl
  rw [subjects_ofTriples, OrderedMap.keys_foldl_collect _ _ _ hkeys]
  exact firstOccurrences_ofList _

theorem firstOccurrences_predicates (h : (ofTriples triples).get? s = some predicates) :
    FirstOccurrences predicates.keys ((triples.filter fun t ↦ t.subject = s).map (·.predicate)) := by
  have hkeys : (DistinctList.empty : DistinctList Iri).toList = (.empty : PredicateMap).keys := rfl
  rw [predicates_eq_foldl h, addObject, OrderedMap.keys_foldl_collect _ _ _ hkeys]
  exact firstOccurrences_ofList _

theorem firstOccurrences_objects (h : (ofTriples triples).objects? s p = some objects) :
    FirstOccurrences objects.toList (objectsOf triples s p) := by
  obtain ⟨predicates, hpredicates, hobjects⟩ := objects?_eq_some_iff.1 h
  rw [objects_eq_ofList hpredicates hobjects]
  exact firstOccurrences_ofList _

theorem size_ofTriples (triples : List Triple) :
    (ofTriples triples).size = (triples.map (·.subject)).toFinset.card := by
  rw [← (firstOccurrences_subjects triples).length_eq, OrderedMap.keys, List.length_map]
  rfl

theorem occupied_ofTriples (triples : List Triple) : (ofTriples triples).Occupied := by
  rintro ⟨s, predicates⟩ hentry
  have hpredicates : (ofTriples triples).get? s = some predicates := OrderedMap.get?_eq_some_iff.2 hentry
  have hsubject : s ∈ (ofTriples triples).subjects.keys := List.mem_map_of_mem hentry
  constructor
  · obtain ⟨t, ht, rfl⟩ := mem_subjects_ofTriples.1 hsubject
    obtain ⟨objects, hget⟩ := OrderedMap.mem_keys_iff.1 ((mem_predicates hpredicates).2 ⟨t.object, ht⟩)
    exact List.ne_nil_of_mem (OrderedMap.get?_eq_some_iff.1 hget)
  · rintro ⟨p, objects⟩ hgroup
    obtain ⟨o, ht⟩ := (mem_predicates hpredicates).1 (List.mem_map_of_mem hgroup)
    exact List.ne_nil_of_mem ((mem_objects hpredicates (OrderedMap.get?_eq_some_iff.2 hgroup)).2 ht)

theorem Occupied.ofTriples_toTriples (h : index.Occupied) : ofTriples index.toTriples = index := by
  have hsubjects : (ofTriples index.toTriples).subjects = index.subjects := by
    rw [subjects_ofTriples]
    refine OrderedMap.foldl_collect_flatMap fun entry hentry ↦ ?_
    obtain ⟨hpredicates, hobjects⟩ := h entry hentry
    have hgroup : ∀ group ∈ entry.2.entries, OrderedMap.Unfolds (·.predicate) .empty
        (fun objects (t : Triple) ↦ objects.push t.object) group
        (group.2.toList.map fun object ↦ ⟨entry.1, group.1, object⟩) := by
      intro group hgroup
      refine ⟨by simpa using hobjects group hgroup, by simp, ?_⟩
      rw [List.foldl_map]
      exact DistinctList.ofList_toList group.2
    refine ⟨?_, ?_, OrderedMap.foldl_collect_flatMap hgroup⟩
    · obtain ⟨group, hmem⟩ := List.exists_mem_of_ne_nil _ hpredicates
      simp only [ne_eq, List.flatMap_eq_nil_iff, not_forall]
      exact ⟨group, hmem, (hgroup group hmem).ne_nil⟩
    · intro t ht
      obtain ⟨group, -, hmem⟩ := List.mem_flatMap.1 ht
      obtain ⟨object, -, rfl⟩ := List.mem_map.1 hmem
      rfl
  exact congrArg TripleIndex.mk hsubjects

/-- Indexing keeps the triples, and the order in which subjects, predicates and objects first occur; only
repetitions are lost. -/
theorem lossless_ofTriples (triples : List Triple) :
    (∀ s p o, (∃ objects, (ofTriples triples).objects? s p = some objects ∧ o ∈ objects) ↔
      ⟨s, p, o⟩ ∈ triples) ∧
    FirstOccurrences (ofTriples triples).subjects.keys (triples.map (·.subject)) ∧
    (∀ s predicates, (ofTriples triples).get? s = some predicates →
      FirstOccurrences predicates.keys ((triples.filter fun t ↦ t.subject = s).map (·.predicate))) ∧
    (∀ s p objects, (ofTriples triples).objects? s p = some objects →
      FirstOccurrences objects.toList
        ((triples.filter fun t ↦ t.subject = s ∧ t.predicate = p).map (·.object))) ∧
    (ofTriples triples).size = (triples.map (·.subject)).toFinset.card ∧
    (ofTriples triples).Occupied ∧
    ofTriples (ofTriples triples).toTriples = ofTriples triples :=
  ⟨fun _ _ _ ↦ mem_objects?_ofTriples, firstOccurrences_subjects triples,
    fun _ _ ↦ firstOccurrences_predicates, fun _ _ _ ↦ firstOccurrences_objects, size_ofTriples triples,
    occupied_ofTriples triples, (occupied_ofTriples triples).ofTriples_toTriples⟩

/-- Two subjects in turn, with a repeated triple between objects of one group. -/
def interleaved : List Triple :=
  [⟨.iri "b", "q", .blank "x"⟩, ⟨.iri "a", "p", .iri "b"⟩, ⟨.iri "b", "p", .blank "y"⟩,
    ⟨.iri "b", "q", .blank "w"⟩, ⟨.iri "b", "q", .blank "x"⟩, ⟨.iri "a", "p", .iri "b"⟩]

theorem lossless_interleaved :
    ∃ predicates objects, (ofTriples interleaved).get? (.iri "b") = some predicates ∧
      (ofTriples interleaved).objects? (.iri "b") "q" = some objects ∧
      predicates.keys = ["q", "p"] ∧ FirstOccurrences predicates.keys ["q", "p", "q", "q"] ∧
      objects.toList = [.blank "x", .blank "w"] ∧
      FirstOccurrences objects.toList [.blank "x", .blank "w", .blank "x"] ∧
      ofTriples (ofTriples interleaved).toTriples = ofTriples interleaved := by
  obtain ⟨-, -, hpredicates, hobjects, -, -, hagain⟩ := lossless_ofTriples interleaved
  exact ⟨_, _, rfl, rfl, by decide, hpredicates (.iri "b") _ rfl, by decide,
    hobjects (.iri "b") "q" _ rfl, hagain⟩

end TripleIndex

end OntologyGuard
