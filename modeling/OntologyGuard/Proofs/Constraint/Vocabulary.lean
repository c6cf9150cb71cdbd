import OntologyGuard.Constraint.Datatype
import OntologyGuard.Proofs.Rdf.TripleIndex
import Mathlib.Data.List.Nodup

namespace OntologyGuard

namespace DatatypeConstraints

/-- One cell of a list: the label of its node, and the element. -/
structure Cell where
  label : String
  first : Literal

/-- Cells in their order, each with a node of its own. -/
structure Enumeration where
  cells : List Cell
  distinct : (cells.map (·.label)).Nodup

namespace Enumeration

def head : List Cell → Term
  | [] => .iri Rdf.nil
  | cell :: _ => .blank cell.label

def chain : List Cell → List Triple
  | [] => []
  | cell :: rest =>
    ⟨.blank cell.label, Rdf.first, .literal cell.first⟩ ::
      ⟨.blank cell.label, Rdf.rest, head rest⟩ :: chain rest

/-- A node that is a subclass of `rdfs:Resource` and has the list as its enumeration. -/
def triples (e : Enumeration) (node : Iri) : List Triple :=
  ⟨.iri node, Rdfs.subClassOf, .iri Rdfs.resource⟩ :: ⟨.iri node, Owl.oneOf, head e.cells⟩ ::
    chain e.cells

def words (e : Enumeration) : List String := e.cells.map (·.first.lexical)

variable {e : Enumeration} {cells : List Cell} {node p : Iri} {label : String} {s o : Term}

theorem exists_label_of_mem_chain (h : ⟨s, p, o⟩ ∈ chain cells) : ∃ label, s = .blank label := by
  induction cells with
  | nil => cases h
  | cons cell rest ih =>
    simp only [chain, List.mem_cons, Triple.mk.injEq] at h
    rcases h with ⟨rfl, -⟩ | ⟨rfl, -⟩ | h
    · exact ⟨_, rfl⟩
    · exact ⟨_, rfl⟩
    · exact ih h

theorem mem_chain_first : ⟨.blank label, Rdf.first, o⟩ ∈ chain cells ↔
    ∃ cell ∈ cells, label = cell.label ∧ o = .literal cell.first := by
  have hne : Rdf.first ≠ Rdf.rest := by decide
  induction cells with
  | nil => simp [chain]
  | cons cell rest ih => simp [chain, ih, hne]

theorem mem_triples_blank :
    ⟨.blank label, p, o⟩ ∈ e.triples node ↔ ⟨.blank label, p, o⟩ ∈ chain e.cells := by
  simp [triples]

theorem mem_triples_node : ⟨.iri node, p, o⟩ ∈ e.triples node ↔
    p = Rdfs.subClassOf ∧ o = .iri Rdfs.resource ∨ p = Owl.oneOf ∧ o = head e.cells := by
  have hchain : ⟨.iri node, p, o⟩ ∉ chain e.cells := by
    intro h
    obtain ⟨label, hlabel⟩ := exists_label_of_mem_chain h
    cases hlabel
  simp [triples, hchain]

theorem subject_of_mem_triples (h : ⟨s, p, o⟩ ∈ e.triples node) (hs : s.isBlank = false) :
    s = .iri node := by
  simp only [triples, List.mem_cons, Triple.mk.injEq] at h
  rcases h with ⟨rfl, -⟩ | ⟨rfl, -⟩ | h
  · rfl
  · rfl
  · obtain ⟨label, rfl⟩ := exists_label_of_mem_chain h
    cases hs

theorem only_first {cell : Cell} (hcell : cell ∈ e.cells) :
    ⟨.blank cell.label, Rdf.first, o⟩ ∈ e.triples node ↔ o = .literal cell.first := by
  rw [mem_triples_blank, mem_chain_first]
  constructor
  · rintro ⟨other, hother, hlabel, rfl⟩
    rw [List.inj_on_of_nodup_map e.distinct hcell hother hlabel]
  · rintro rfl
    exact ⟨cell, hcell, rfl, rfl⟩

section Reading

variable {triples : List Triple} {objects : ObjectSet} {cell : Cell}
  (h : ∀ t, t ∈ triples ↔ t ∈ e.triples node)

include h

theorem named_subjects :
    ((TripleIndex.ofTriples triples).subjects.keys.filter fun s ↦ !s.isBlank) = [.iri node] := by
  have hnodup : (TripleIndex.ofTriples triples).subjects.keys.Nodup :=
    (TripleIndex.ofTriples triples).subjects.nodup_keys
  refine List.perm_singleton.1 ((List.perm_ext_iff_of_nodup (hnodup.filter _)
    (List.nodup_singleton _)).2 fun s ↦ ?_)
  rw [List.mem_filter, TripleIndex.mem_subjects_ofTriples, List.mem_singleton, Bool.not_eq_true']
  constructor
  · rintro ⟨⟨t, ht, rfl⟩, hnamed⟩
    exact subject_of_mem_triples ((h t).1 ht) hnamed
  · rintro rfl
    exact ⟨⟨_, (h _).2 List.mem_cons_self, rfl⟩, rfl⟩

theorem isEnumeration_written : isEnumeration (.ofTriples triples) (.iri node) = true := by
  have hclass (o : Term) : ⟨.iri node, Rdfs.subClassOf, o⟩ ∈ triples ↔ o = .iri Rdfs.resource := by
    have hne : Rdfs.subClassOf ≠ Owl.oneOf := by decide
    simp [h, mem_triples_node, hne]
  have hlist : ⟨.iri node, Owl.oneOf, head e.cells⟩ ∈ triples :=
    (h _).2 (mem_triples_node.2 (.inr ⟨rfl, rfl⟩))
  obtain ⟨predicates, hget⟩ := TripleIndex.exists_get?_of_mem hlist
  obtain ⟨objects, hobjects⟩ := OrderedMap.mem_keys_iff.1 ((TripleIndex.mem_predicates hget).2 ⟨_, hlist⟩)
  have hmem : head e.cells ∈ objects := (TripleIndex.mem_objects hget hobjects).2 hlist
  have hsome : objects.toList ≠ [] := List.ne_nil_of_mem hmem
  have hsingle := (TripleIndex.single?_eq_some_iff hget).2 hclass
  simp [isEnumeration, TripleIndex.objects?, hget, hobjects, hsingle, hsome, Term.asIri?]

theorem first_written (hcell : cell ∈ e.cells) {predicates : PredicateMap}
    (hget : (TripleIndex.ofTriples triples).get? (.blank cell.label) = some predicates)
    (hobjects : predicates.get? Rdf.first = some objects) :
    objects.toList = [.literal cell.first] := by
  have hsingle := (TripleIndex.single?_eq_some_iff hget).2 fun o ↦
    (h ⟨.blank cell.label, Rdf.first, o⟩).trans (only_first hcell)
  rw [hobjects, Option.bind_some] at hsingle
  exact DistinctList.single?_eq_some_iff.1 hsingle

theorem toList_of_mem_cells (hobjects : objects ∈ DatatypeConstraints.cells (.ofTriples triples)) :
    ∃ cell ∈ e.cells, objects.toList = [.literal cell.first] := by
  obtain ⟨⟨s, predicates⟩, hmem, hfirst⟩ := List.mem_filterMap.1 hobjects
  have hget := OrderedMap.get?_eq_some_iff.2 hmem
  cases s with
  | iri i => cases hfirst
  | literal l => cases hfirst
  | blank label =>
    obtain ⟨o, ho⟩ := (TripleIndex.mem_predicates hget).1 (OrderedMap.mem_keys_iff.2 ⟨objects, hfirst⟩)
    obtain ⟨cell, hcell, rfl, -⟩ := mem_chain_first.1 (mem_triples_blank.1 ((h _).1 ho))
    exact ⟨cell, hcell, first_written h hcell hget hfirst⟩

theorem exists_mem_cells (hcell : cell ∈ e.cells) :
    ∃ objects ∈ DatatypeConstraints.cells (.ofTriples triples),
      objects.toList = [.literal cell.first] := by
  have hfirst : ⟨.blank cell.label, Rdf.first, .literal cell.first⟩ ∈ triples :=
    (h _).2 ((only_first hcell).2 rfl)
  obtain ⟨predicates, hget⟩ := TripleIndex.exists_get?_of_mem hfirst
  obtain ⟨objects, hobjects⟩ :=
    OrderedMap.mem_keys_iff.1 ((TripleIndex.mem_predicates hget).2 ⟨_, hfirst⟩)
  refine ⟨objects, List.mem_filterMap.2 ⟨_, OrderedMap.get?_eq_some_iff.1 hget, hobjects⟩, ?_⟩
  exact first_written h hcell hget hobjects

theorem mem_words_read {word : String} :
    word ∈ ((DatatypeConstraints.cells (.ofTriples triples)).flatMap fun objects ↦
      objects.toList.map Term.identifier) ↔ word ∈ e.words := by
  simp only [List.mem_flatMap, words, List.mem_map]
  constructor
  · rintro ⟨objects, hobjects, o, ho, rfl⟩
    obtain ⟨cell, hcell, hlist⟩ := toList_of_mem_cells h hobjects
    rw [hlist, List.mem_singleton] at ho
    exact ⟨cell, hcell, ho ▸ rfl⟩
  · rintro ⟨cell, hcell, rfl⟩
    obtain ⟨objects, hobjects, hlist⟩ := exists_mem_cells h hcell
    exact ⟨objects, hobjects, .literal cell.first, hlist ▸ List.mem_cons_self, rfl⟩

theorem vocabulary_written («class» : Iri) :
    ∃ vocabulary : WordSet, ofTriples «class» triples = (some { «class», vocabulary }, []) ∧
      ∀ word, word ∈ vocabulary.toList ↔ word ∈ e.words := by
  have hsingle : (DatatypeConstraints.cells (.ofTriples triples)).filter
      (fun objects ↦ 1 < objects.size) = [] := by
    refine List.filter_eq_nil_iff.2 fun objects hobjects ↦ ?_
    obtain ⟨cell, -, hlist⟩ := toList_of_mem_cells h hobjects
    simp [DistinctList.size, hlist]
  refine ⟨_, ?_, fun word ↦ WordSet.mem_ofList.trans (mem_words_read h)⟩
  simp [ofTriples, named_subjects h, isEnumeration_written h, hsingle]

end Reading

end Enumeration

theorem validate_of_mem {d : DatatypeConstraints} {value : String} (h : value ∈ d.vocabulary.toList) :
    d.validate value = [] := by
  have hcontains : d.vocabulary.contains value = true := List.contains_iff_mem.2 h
  rw [validate, if_pos hcontains]

theorem validate_of_notMem {d : DatatypeConstraints} {value : String}
    (h : value ∉ d.vocabulary.toList) : ∃ r, d.validate value = [r] ∧ r.kind = .constraintError := by
  have hcontains : ¬d.vocabulary.contains value = true := mt List.contains_iff_mem.1 h
  rw [validate, if_neg hcontains]
  exact ⟨_, rfl, rfl⟩

/-- Triples that state an enumeration, in any order and with any repetitions, are read without a report,
and the constraints accept the words of the enumeration and report every other value once. -/
theorem accepts_words_of_written («class» node : Iri) (e : Enumeration) (triples : List Triple)
    (h : ∀ t, t ∈ triples ↔ t ∈ e.triples node) :
    ∃ d, ofTriples «class» triples = (some d, []) ∧ d.class = «class» ∧
      ∀ value, (value ∈ e.words → d.validate value = []) ∧
        (value ∉ e.words → ∃ r, d.validate value = [r] ∧ r.kind = .constraintError) := by
  obtain ⟨vocabulary, hread, hwords⟩ := Enumeration.vocabulary_written h «class»
  refine ⟨_, hread, rfl, fun value ↦ ⟨fun hvalue ↦ ?_, fun hvalue ↦ ?_⟩⟩
  · exact validate_of_mem ((hwords value).2 hvalue)
  · exact validate_of_notMem (mt (hwords value).1 hvalue)

def twiceListed : Enumeration where
  cells := [⟨"a", ⟨"md5", none⟩⟩, ⟨"b", ⟨"", none⟩⟩, ⟨"c", ⟨"md5", some Xsd.string⟩⟩]
  distinct := by decide

theorem accepts_words_twiceListed :
    ∃ d, ofTriples "V" (twiceListed.triples "V").reverse = (some d, []) ∧ d.class = "V" ∧
      ∀ value, (value ∈ twiceListed.words → d.validate value = []) ∧
        (value ∉ twiceListed.words →
          ∃ r, d.validate value = [r] ∧ r.kind = .constraintError) :=
  accepts_words_of_written "V" "V" twiceListed _ fun _ ↦ List.mem_reverse

end DatatypeConstraints

end OntologyGuard
