import OntologyGuard.Proofs.Hierarchy.Cycles
import OntologyGuard.Proofs.Inheritance.Lookup
import OntologyGuard.Proofs.Ontology.Resolution

namespace OntologyGuard

/-- Two descriptions of a class in the place of one. They share out its parents and its triples, and
the triples of one subject stay together. -/
structure ClassDescription.SplitsInto (whole first second : ClassDescription) : Prop where
  kind : whole.kind = .owlClass
  sameFirst : first.iri = whole.iri ∧ first.kind = whole.kind
  sameSecond : second.iri = whole.iri ∧ second.kind = whole.kind
  parents : first.parents ++ second.parents = whole.parents
  triples : ∃ inFirst : Term → Bool,
    first.triples = whole.triples.filter (fun t ↦ inFirst t.subject) ∧
    second.triples = whole.triples.filter (fun t ↦ !inFirst t.subject)

/-- Two descriptions of a property in the place of one, which share out its ranges and triples. -/
structure PropertyDescription.SplitsInto (whole first second : PropertyDescription) : Prop where
  sameFirst : first.iri = whole.iri
  sameSecond : second.iri = whole.iri
  ranges : (first.ranges ++ second.ranges).Perm whole.ranges
  triples : (first.triples ++ second.triples).Perm whole.triples

namespace Hierarchy

variable {h : Hierarchy} {iri parent child : Iri}

theorem addClass_eq_self (hkey : iri ∈ h.parents.keys) : h.addClass iri = h := by
  obtain ⟨list, hlist⟩ := OrderedMap.mem_keys_iff.1 hkey
  have hsame : h.parents.update iri [] id = h.parents := by
    apply OrderedMap.insert_eq_self
    rw [hlist]
    rfl
  rw [addClass, hsame]

theorem mem_keys_addClass (h : Hierarchy) (iri : Iri) : iri ∈ (h.addClass iri).parents.keys := by
  rw [OrderedMap.mem_keys_iff]
  exact ⟨_, (OrderedMap.get?_update h.parents iri [] id iri).trans (if_pos rfl)⟩

theorem mem_keys_foldl_addEdge {parents : List Iri} (hkey : iri ∈ h.parents.keys) :
    iri ∈ (parents.foldl (fun h parent ↦ h.addEdge parent child) h).parents.keys := by
  induction parents generalizing h with
  | nil => exact hkey
  | cons parent rest ih =>
    obtain ⟨list, hlist⟩ := OrderedMap.mem_keys_iff.1 hkey
    apply ih
    rw [OrderedMap.mem_keys_iff]
    by_cases hchild : iri = child
    · exact ⟨_, (OrderedMap.get?_update h.parents child [] _ iri).trans (if_pos hchild)⟩
    · exact ⟨list, (OrderedMap.get?_update h.parents child [] _ iri).trans
        ((if_neg hchild).trans hlist)⟩

theorem addDescription_split {whole first second : ClassDescription}
    (hsplit : whole.SplitsInto first second) (h : Hierarchy) :
    (h.addDescription first).addDescription second = h.addDescription whole := by
  have hkey : whole.iri ∈ (h.addDescription first).parents.keys := by
    rw [← hsplit.sameFirst.1]
    exact mem_keys_foldl_addEdge (mem_keys_addClass h first.iri)
  have hsecond : (h.addDescription first).addDescription second =
      second.parents.foldl (fun h parent ↦ h.addEdge parent whole.iri)
        (h.addDescription first) := by
    rw [addDescription, hsplit.sameSecond.1, addClass_eq_self hkey]
  rw [hsecond, addDescription, addDescription, hsplit.sameFirst.1, ← hsplit.parents,
    List.foldl_append]

theorem ofClasses_split {whole first second : ClassDescription}
    (hsplit : whole.SplitsInto first second) (before after : List ClassDescription) :
    ofClasses (before ++ first :: second :: after) = ofClasses (before ++ whole :: after) := by
  unfold ofClasses
  rw [List.foldl_append, List.foldl_append, List.foldl_cons, List.foldl_cons, List.foldl_cons,
    addDescription_split hsplit]

end Hierarchy

namespace Definitions

variable {definitions other : Definitions}

theorem Alike.mem_properties (h : definitions.Alike other) {p : Iri}
    (hp : p ∈ definitions.restrictions.flatMap fun entry ↦ entry.2.properties.keys) :
    p ∈ other.restrictions.flatMap fun entry ↦ entry.2.properties.keys := by
  obtain ⟨⟨iri, c⟩, hentry, hkey⟩ := List.mem_flatMap.1 hp
  obtain ⟨d, hd, halike⟩ := h.restricted? (mem_restrictions.1 hentry)
  obtain ⟨own, hown⟩ := OrderedMap.mem_keys_iff.1 hkey
  refine List.mem_flatMap.2 ⟨(iri, d), mem_restrictions.2 hd, ?_⟩
  exact OrderedMap.mem_keys_iff.2 ⟨own, (halike.sameGet p).symm.trans hown⟩

theorem Alike.size_properties_eq (h : definitions.Alike other) :
    (DistinctList.ofList
      (definitions.restrictions.flatMap fun entry ↦ entry.2.properties.keys)).size =
    (DistinctList.ofList
      (other.restrictions.flatMap fun entry ↦ entry.2.properties.keys)).size := by
  apply DistinctList.size_eq_of_mem
  intro p
  rw [DistinctList.mem_ofList, DistinctList.mem_ofList]
  exact ⟨h.mem_properties, h.symm.mem_properties⟩

theorem Alike.defaultMaxPasses_eq (h : definitions.Alike other) :
    Inheritance.defaultMaxPasses definitions = Inheritance.defaultMaxPasses other := by
  unfold Inheritance.defaultMaxPasses
  dsimp only
  rw [h.size_eq, h.size_properties_eq]

theorem ofClasses_split {first second : ClassDescription} (hiri : first.iri = second.iri)
    (before after : List ClassDescription) :
    (ofClasses (before ++ first :: second :: after)).1 =
      (ofClasses (before ++ second :: after)).1 := by
  have hlater (definitions : Definitions) :
      (definitions.addDescription first).addDescription second =
        definitions.addDescription second := by
    rw [addDescription, addDescription, addDescription, hiri, OrderedMap.insert_insert]
  rw [ofClasses_eq_foldl, ofClasses_eq_foldl, List.foldl_append, List.foldl_append,
    List.foldl_cons, List.foldl_cons, List.foldl_cons, hlater]

theorem alike_ofClasses {d d' : ClassDescription} (hiri : d.iri = d'.iri)
    (h : (ClassDefinition.ofDescription d).1.Alike (ClassDefinition.ofDescription d').1)
    (before after : List ClassDescription) :
    (ofClasses (before ++ d :: after)).1.Alike (ofClasses (before ++ d' :: after)).1 := by
  have hafter (definitions other : Definitions) (halike : definitions.Alike other) :
      (after.foldl addDescription definitions).Alike (after.foldl addDescription other) := by
    induction after generalizing definitions other with
    | nil => exact halike
    | cons next rest ih =>
      exact ih _ _ (halike.insert (.refl (ClassDefinition.ofDescription next).1) next.iri)
  rw [ofClasses_eq_foldl, ofClasses_eq_foldl, List.foldl_append, List.foldl_append,
    List.foldl_cons, List.foldl_cons]
  apply hafter
  rw [addDescription, addDescription, hiri]
  exact (Alike.refl _).insert h d'.iri

theorem get?_ofClasses_last (before : List ClassDescription) (d : ClassDescription) :
    (ofClasses (before ++ [d])).1.get? d.iri = some (ClassDefinition.ofDescription d).1 := by
  rw [ofClasses_eq_foldl, List.foldl_append]
  exact (OrderedMap.get?_insert _ d.iri _ d.iri).trans (if_pos rfl)

end Definitions

namespace PropertyRanges

variable {context : Context}

theorem ofDescription_eq (description : PropertyDescription) :
    (ofDescription context description).1 = (DistinctList.ofList description.ranges).single? := by
  unfold ofDescription DistinctList.single?
  dsimp only
  split
  next h => rw [h]
  next range h => rw [h]
  next hnil hone =>
    split
    next range h => exact absurd h (hone range)
    next => rfl

def addDescription (ranges : PropertyRanges) (description : PropertyDescription) :
    PropertyRanges :=
  ranges.insert description.iri (DistinctList.ofList description.ranges).single?

theorem ofProperties_eq_foldl (properties : List PropertyDescription) :
    (ofProperties context properties).1 = properties.foldl addDescription .empty := by
  unfold ofProperties
  generalize (OrderedMap.empty : PropertyRanges) = ranges, ([] : List Diagnostic) = found
  induction properties generalizing ranges found with
  | nil => rfl
  | cons description rest ih =>
    rw [List.foldl_cons, List.foldl_cons, addDescription, ← ofDescription_eq]
    exact ih _ _

theorem ofProperties_split {whole first second : PropertyDescription}
    (hsplit : whole.SplitsInto first second)
    (h : (DistinctList.ofList second.ranges).single? = (DistinctList.ofList whole.ranges).single?)
    (before after : List PropertyDescription) :
    (ofProperties context (before ++ first :: second :: after)).1 =
      (ofProperties context (before ++ whole :: after)).1 := by
  have hlater (ranges : PropertyRanges) :
      (ranges.addDescription first).addDescription second = ranges.addDescription whole := by
    rw [addDescription, addDescription, addDescription, hsplit.sameFirst, hsplit.sameSecond, h,
      OrderedMap.insert_insert]
  rw [ofProperties_eq_foldl, ofProperties_eq_foldl, List.foldl_append, List.foldl_append,
    List.foldl_cons, List.foldl_cons, List.foldl_cons, hlater]

theorem get?_ofProperties_last (before : List PropertyDescription) (d : PropertyDescription) :
    (ofProperties context (before ++ [d])).1.get? d.iri =
      some (DistinctList.ofList d.ranges).single? := by
  rw [ofProperties_eq_foldl, List.foldl_append]
  exact (OrderedMap.get?_insert _ d.iri _ d.iri).trans (if_pos rfl)

end PropertyRanges

namespace Ontology

variable {config : ResolverConfig} {document document' : OntologyDocument}

theorem alike_resolve
    (hown : (Definitions.ofClasses document.classes).1.Alike
      (Definitions.ofClasses document'.classes).1)
    (hhierarchy : Hierarchy.ofClasses document.classes = Hierarchy.ofClasses document'.classes) :
    (resolve config document).definitions.Alike (resolve config document').definitions := by
  change (inheritance config document).definitions.Alike (inheritance config document').definitions
  unfold inheritance
  dsimp only
  rw [hhierarchy, hown.defaultMaxPasses_eq]
  exact Inheritance.alike_run _ _ hown

/-- A class on its own inherits nothing, even where it names itself as a parent. -/
theorem definitions_resolve_alone {iri : Iri} (halone : ∀ d ∈ document.classes, d.iri = iri) :
    (resolve config document).definitions = (Definitions.ofClasses document.classes).1 := by
  refine Inheritance.run_induction
    (motive := fun definitions _ ↦ definitions = (Definitions.ofClasses document.classes).1)
    _ _ _ rfl ?_
  rintro pass ⟨parent, child⟩ hedge hown
  obtain ⟨d, hd, hchild, -⟩ := Hierarchy.declared_of_mem_breakCycles hedge
  have hparent : (Definitions.ofClasses document.classes).1.get? parent = none := by
    refine Option.eq_none_iff_forall_ne_some.2 fun definition hdefined ↦ ?_
    obtain ⟨d', hd', rfl⟩ :=
      Definitions.mem_keys_ofClasses.1 (OrderedMap.mem_keys_iff.2 ⟨definition, hdefined⟩)
    -- the only edge there could be is one from the class to itself, and it lies on a cycle
    obtain rfl : d'.iri = child := by rw [halone d' hd', ← hchild, halone d hd]
    exact Hierarchy.acyclic_breakCycles _ 0 d'.iri ((Hierarchy.Path.nil d'.iri).snoc hedge)
  have hstay : pass.inherit (parent, child) = pass := by
    unfold Inheritance.Pass.inherit
    rw [hown, hparent]
  rw [hstay, hown]

theorem get?_resolve_alone (before : List ClassDescription) (d : ClassDescription)
    (halone : ∀ other ∈ before, other.iri = d.iri) :
    (resolve config { classes := before ++ [d] }).definitions.get? d.iri =
      some (ClassDefinition.ofDescription d).1 := by
  have hall : ∀ other ∈ before ++ [d], other.iri = d.iri := by
    simpa [or_imp, forall_and] using halone
  rw [definitions_resolve_alone hall]
  exact Definitions.get?_ofClasses_last before d

/-- A split changes nothing exactly when the later part says by itself what the whole says. -/
theorem unchanged_iff_second_suffices (config : ResolverConfig) :
    (∀ whole first second : ClassDescription, whole.SplitsInto first second →
      ((∀ (document : OntologyDocument) (before after : List ClassDescription),
        (resolve config
          { document with classes := before ++ first :: second :: after }).definitions.Alike
        (resolve config { document with classes := before ++ whole :: after }).definitions) ↔
      (ClassDefinition.ofDescription second).1.Alike (ClassDefinition.ofDescription whole).1)) ∧
    ∀ whole first second : PropertyDescription, whole.SplitsInto first second →
      ((∀ (document : OntologyDocument) (before after : List PropertyDescription) (p : Iri),
        (resolve config
          { document with properties := before ++ first :: second :: after }).propertyRanges.get? p =
        (resolve config
          { document with properties := before ++ whole :: after }).propertyRanges.get? p) ↔
      (DistinctList.ofList second.ranges).single? =
        (DistinctList.ofList whole.ranges).single?) := by
  constructor
  · intro whole first second hsplit
    have hiri : first.iri = second.iri := hsplit.sameFirst.1.trans hsplit.sameSecond.1.symm
    constructor
    · intro hunchanged
      have halike := hunchanged {} [] [] second.iri
      have hparts : (resolve config { classes := [first, second] }).definitions.get? second.iri =
          some (ClassDefinition.ofDescription second).1 :=
        get?_resolve_alone [first] second (by simpa using hiri)
      have hwhole : (resolve config { classes := [whole] }).definitions.get? second.iri =
          some (ClassDefinition.ofDescription whole).1 := by
        rw [hsplit.sameSecond.1]
        exact get?_resolve_alone [] whole (by simp)
      rw [List.nil_append, List.nil_append, hparts, hwhole] at halike
      cases halike with
      | some h => exact h
    · intro hsuffices document before after
      apply alike_resolve
      · rw [Definitions.ofClasses_split hiri]
        exact Definitions.alike_ofClasses hsplit.sameSecond.1 hsuffices before after
      · exact Hierarchy.ofClasses_split hsplit before after
  · intro whole first second hsplit
    constructor
    · intro hunchanged
      have hsame := hunchanged {} [] [] whole.iri
      have hparts : (resolve config { properties := [first, second] }).propertyRanges.get?
          whole.iri = some (DistinctList.ofList second.ranges).single? := by
        rw [← hsplit.sameSecond]
        exact PropertyRanges.get?_ofProperties_last [first] second
      have hwhole : (resolve config { properties := [whole] }).propertyRanges.get? whole.iri =
          some (DistinctList.ofList whole.ranges).single? :=
        PropertyRanges.get?_ofProperties_last [] whole
      exact Option.some.inj (hparts.symm.trans (hsame.trans hwhole))
    · intro hsuffices document before after p
      exact congrArg (·.get? p) (PropertyRanges.ofProperties_split hsplit hsuffices before after)

/-- A class with one restriction for each node, which asks for a value of the node's property. -/
def restrictedBy (nodes : List (String × Iri)) (parents : List Iri) : ClassDescription where
  iri := "C"
  triples := nodes.flatMap fun node ↦
    [⟨.blank node.1, Rdf.type, .iri Owl.restriction⟩,
      ⟨.blank node.1, Owl.onProperty, .iri node.2⟩,
      ⟨.blank node.1, Owl.minCardinality, .literal ⟨"1", none⟩⟩]
  parents := parents

def rangedOver (ranges : List Iri) : PropertyDescription where
  iri := "p"
  ranges := ranges

theorem splitsInto_rangedOver (ranges later : List Iri) :
    (rangedOver (ranges ++ later)).SplitsInto (rangedOver ranges) (rangedOver later) :=
  ⟨rfl, rfl, .refl _, .refl _⟩

theorem splitsInto_restrictedBy (property : Iri) :
    (restrictedBy [("a", "p"), ("b", property)] ["A", "B"]).SplitsInto
      (restrictedBy [("a", "p")] ["A"]) (restrictedBy [("b", property)] ["B"]) :=
  ⟨rfl, ⟨rfl, rfl⟩, ⟨rfl, rfl⟩, rfl, fun subject ↦ subject = .blank "a", rfl, rfl⟩

theorem unchanged_of_twins :
    (∀ (document : OntologyDocument) (before after : List ClassDescription),
      (resolve {} { document with
        classes := before ++ restrictedBy [("a", "p")] ["A"] :: restrictedBy [("b", "p")] ["B"] ::
          after }).definitions.Alike
      (resolve {} { document with
        classes := before ++ restrictedBy [("a", "p"), ("b", "p")] ["A", "B"] ::
          after }).definitions) ∧
    ∀ (document : OntologyDocument) (before after : List PropertyDescription) (p : Iri),
      (resolve {} { document with
        properties := before ++ rangedOver ["R"] :: rangedOver ["R"] ::
          after }).propertyRanges.get? p =
      (resolve {} { document with
        properties := before ++ rangedOver ["R", "R"] :: after }).propertyRanges.get? p := by
  have hsuffices : (ClassDefinition.ofDescription (restrictedBy [("b", "p")] ["B"])).1 =
      (ClassDefinition.ofDescription (restrictedBy [("a", "p"), ("b", "p")] ["A", "B"])).1 := by
    decide +kernel
  have hranges : (DistinctList.ofList (rangedOver ["R"]).ranges).single? =
      (DistinctList.ofList (rangedOver ["R", "R"]).ranges).single? := by
    decide +kernel
  constructor
  · refine ((unchanged_iff_second_suffices {}).1 _ _ _ (splitsInto_restrictedBy "p")).2 ?_
    rw [hsuffices]
    exact .refl _
  · exact ((unchanged_iff_second_suffices {}).2 _ _ _ (splitsInto_rangedOver ["R"] ["R"])).2
      hranges

def wholeDocument : OntologyDocument where
  classes := [restrictedBy [("a", "p"), ("b", "q")] ["A", "B"]]
  properties := [rangedOver ["R", "S"]]

def splitDocument : OntologyDocument where
  classes := [restrictedBy [("a", "p")] ["A"], restrictedBy [("b", "q")] ["B"]]
  properties := [rangedOver ["R"], rangedOver ["S"]]

/-- What only the first part says is gone without a report, be it a restriction or the range that
makes the ranges ambiguous. -/
theorem first_part_lost :
    (restrictedBy [("a", "p"), ("b", "q")] ["A", "B"]).SplitsInto
      (restrictedBy [("a", "p")] ["A"]) (restrictedBy [("b", "q")] ["B"]) ∧
    (rangedOver ["R", "S"]).SplitsInto (rangedOver ["R"]) (rangedOver ["S"]) ∧
    (resolve {} splitDocument).diagnostics = [] ∧
    ¬ (resolve {} splitDocument).definitions.Alike (resolve {} wholeDocument).definitions ∧
    (resolve {} splitDocument).propertyRanges.get? "p" = some (some "S") ∧
    (resolve {} wholeDocument).propertyRanges.get? "p" = some none := by
  refine ⟨splitsInto_restrictedBy "q", splitsInto_rangedOver ["R"] ["S"], by decide +kernel, ?_,
    by decide +kernel, by decide +kernel⟩
  intro halike
  have hsplit : ((resolve {} splitDocument).definitions.restricted? "C").bind (·.get? "p") =
      none := by decide +kernel
  have hwhole : ((resolve {} wholeDocument).definitions.restricted? "C").bind (·.get? "p") ≠
      none := by decide +kernel
  exact hwhole ((halike.bind_get? "C" "p").symm.trans hsplit)

end Ontology

end OntologyGuard
