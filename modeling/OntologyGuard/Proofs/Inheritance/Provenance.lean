import OntologyGuard.Proofs.Inheritance.Settling

/-!
Where constraints come from. What a class requires in the end is put together from what it and the
classes above it required at the start, and a quiet run has carried all of that down to it.
-/

namespace OntologyGuard

namespace PropertyConstraints

variable {sources sources' : PropertyConstraints → Prop} {c d inherited : PropertyConstraints}

/-- Each field that `c` sets has its value in one of the sources. -/
structure ComposedOf (sources : PropertyConstraints → Prop) (c : PropertyConstraints) : Prop where
  source : ∃ d, sources d
  min : ∀ m, c.min = some m → ∃ d, sources d ∧ d.min = some m
  max : ∀ m, c.max = some m → ∃ d, sources d ∧ d.max = some m
  range : ∀ r, c.range = some r → ∃ d, sources d ∧ d.range = some r

theorem ComposedOf.of_extends (hd : sources d) (h : d.Extends c) : c.ComposedOf sources where
  source := ⟨d, hd⟩
  min m hm := ⟨d, hd, h.min m hm⟩
  max m hm := ⟨d, hd, h.max m hm⟩
  range r hr := ⟨d, hd, h.range r hr⟩

theorem ComposedOf.of_source (hc : sources c) : c.ComposedOf sources := .of_extends hc (.refl c)

theorem ComposedOf.trans (h : c.ComposedOf sources)
    (hsources : ∀ d, sources d → d.ComposedOf sources') : c.ComposedOf sources' where
  source := by
    obtain ⟨d, hd⟩ := h.source
    exact (hsources d hd).source
  min m hm := by
    obtain ⟨d, hd, hdm⟩ := h.min m hm
    exact (hsources d hd).min m hdm
  max m hm := by
    obtain ⟨d, hd, hdm⟩ := h.max m hm
    exact (hsources d hd).max m hdm
  range r hr := by
    obtain ⟨d, hd, hdr⟩ := h.range r hr
    exact (hsources d hd).range r hdr

theorem ComposedOf.fill (hc : c.ComposedOf sources) (hinherited : inherited.ComposedOf sources) :
    (c.fill inherited).ComposedOf sources where
  source := hc.source
  min m hm := (Option.or_eq_some_iff.1 hm).elim (hc.min m) fun h ↦ hinherited.min m h.2
  max m hm := (Option.or_eq_some_iff.1 hm).elim (hc.max m) fun h ↦ hinherited.max m h.2
  range r hr := (Option.or_eq_some_iff.1 hr).elim (hc.range r) fun h ↦ hinherited.range r h.2

theorem ComposedOf.mergeParent (hc : c.ComposedOf sources)
    (hinherited : inherited.ComposedOf sources) :
    (c.mergeParent inherited).1.ComposedOf sources := by
  have hfill := hc.fill hinherited
  by_cases h : c.Refuses inherited
  · rw [mergeParent_of_refuses h]
    exact ⟨hc.source, hc.min, hc.max, hfill.range⟩
  · rw [mergeParent_of_not_refuses h]
    exact hfill

theorem ComposedOf.handedDown {own : Option PropertyConstraints}
    (hown : ∀ c, own = some c → c.ComposedOf sources) (hinherited : inherited.ComposedOf sources)
    («class» : Iri) : (ClassConstraints.handedDown «class» own inherited).ComposedOf sources := by
  unfold ClassConstraints.handedDown
  cases own with
  | none => exact ⟨hinherited.source, hinherited.min, hinherited.max, hinherited.range⟩
  | some c =>
    have hc := hown c rfl
    by_cases h : (c.mergeParent inherited).1.agrees c = true
    · simpa only [if_pos h] using hc
    · simpa only [if_neg h] using hc.mergeParent hinherited

end PropertyConstraints

namespace Definitions

variable {definitions later : Definitions} {iri p : Iri} {pc : PropertyConstraints}

def constraint? (definitions : Definitions) (iri p : Iri) : Option PropertyConstraints :=
  (definitions.restricted? iri).bind (·.get? p)

theorem constraint?_eq_some_iff : definitions.constraint? iri p = some pc ↔
    ∃ c, definitions.restricted? iri = some c ∧ c.get? p = some pc :=
  Option.bind_eq_some_iff

theorem constraint?_of_restricted {c : ClassConstraints} (h : definitions.restricted? iri = some c)
    (p : Iri) : definitions.constraint? iri p = c.get? p := by
  rw [constraint?, h, Option.bind_some]

theorem Extends.trans {latest : Definitions} (h : latest.Extends later)
    (h' : later.Extends definitions) : latest.Extends definitions := by
  intro iri c hc
  obtain ⟨c', hc', hextends⟩ := h' iri c hc
  obtain ⟨c'', hc'', hextends'⟩ := h iri c' hc'
  refine ⟨c'', hc'', fun p pc hpc ↦ ?_⟩
  obtain ⟨pc', hpc', hfields⟩ := hextends p pc hpc
  obtain ⟨pc'', hpc'', hfields'⟩ := hextends' p pc' hpc'
  exact ⟨pc'', hpc'', hfields'.trans hfields⟩

theorem Extends.constraint? (h : later.Extends definitions)
    (hpc : definitions.constraint? iri p = some pc) :
    ∃ pc', later.constraint? iri p = some pc' ∧ pc'.Extends pc := by
  obtain ⟨c, hc, hget⟩ := constraint?_eq_some_iff.1 hpc
  obtain ⟨c', hc', hextends⟩ := h iri c hc
  obtain ⟨pc', hget', hfields⟩ := hextends p pc hget
  exact ⟨pc', constraint?_eq_some_iff.2 ⟨c', hc', hget'⟩, hfields⟩

def IsDatatype (definitions : Definitions) (iri : Iri) : Prop :=
  ∃ words, definitions.get? iri = some (.datatype words)

theorem isDatatype_iff :
    definitions.IsDatatype iri ↔ ((definitions.get? iri).bind (·.asDatatype?)).isSome = true := by
  unfold IsDatatype
  cases definitions.get? iri with
  | none => simp
  | some definition => cases definition <;> simp [ClassDefinition.asDatatype?]

instance : Decidable (definitions.IsDatatype iri) := decidable_of_iff _ isDatatype_iff.symm

theorem not_isDatatype_of_restricted {c : ClassConstraints}
    (h : definitions.restricted? iri = some c) : ¬ definitions.IsDatatype iri := by
  rintro ⟨words, hwords⟩
  cases hwords.symm.trans (restricted?_eq_some_iff.1 h)

end Definitions

namespace Inheritance

variable {children : OrderedMap Iri (List Iri)} {definitions : Definitions} {n : Nat}
  {origin «class» iri p : Iri}

/-- A path of edges down from one class to another, on which no class after the first is a
datatype. -/
inductive Reaches (children : OrderedMap Iri (List Iri)) (definitions : Definitions) :
    Iri → Iri → Prop
  | refl (iri : Iri) : Reaches children definitions iri iri
  | step {origin parent child : Iri} (path : Reaches children definitions origin parent)
    (edge : (parent, child) ∈ edgesOf children) (plain : ¬ definitions.IsDatatype child) :
    Reaches children definitions origin child

/-- What the class itself, or a class that reaches it, requires of the property. -/
def Inheritable (children : OrderedMap Iri (List Iri)) (definitions : Definitions)
    («class» p : Iri) (source : PropertyConstraints) : Prop :=
  ∃ origin, Reaches children definitions origin «class» ∧
    definitions.constraint? origin p = some source

namespace Pass

/-- A step does nothing, or it puts constraints under the child in which each property is the child's
own one with the parent's handed down to it. A copy is the case of a child without any. -/
theorem inherit_definitions_cases (pass : Pass) (edge : Iri × Iri) :
    (pass.inherit edge).definitions = pass.definitions ∨
    ¬ pass.definitions.IsDatatype edge.2 ∧ ∃ parent child,
      pass.definitions.restricted? edge.1 = some parent ∧
      (pass.inherit edge).definitions = pass.definitions.insert edge.2 (.restricted child) ∧
      ∃ «class», ∀ p, child.get? p =
        match parent.get? p with
        | none => pass.definitions.constraint? edge.2 p
        | some inherited =>
          some (ClassConstraints.handedDown «class» (pass.definitions.constraint? edge.2 p)
            inherited) := by
  by_cases hdatatype : pass.definitions.IsDatatype edge.2
  · obtain ⟨words, hwords⟩ := hdatatype
    left
    rw [inherit_of_datatype hwords]
  · rcases inherit_cases pass edge with ⟨-, he⟩ | ⟨parent, own, hparent, hown, he⟩ |
      ⟨parent, hparent, hnone, he⟩
    · left
      rw [he]
    · right
      refine ⟨hdatatype, parent, _, hparent, by rw [he], own.class, fun p ↦ ?_⟩
      rw [Definitions.constraint?_of_restricted hown]
      exact ClassConstraints.get?_mergeParent own parent p
    · right
      refine ⟨hdatatype, parent, _, hparent, by rw [he], edge.2, fun p ↦ ?_⟩
      rw [ClassConstraints.get?_relabel, Definitions.constraint?, hnone, Option.bind_none]
      cases parent.get? p <;> rfl

theorem isDatatype_inherit_iff (pass : Pass) (edge : Iri × Iri) :
    (pass.inherit edge).definitions.IsDatatype iri ↔ pass.definitions.IsDatatype iri := by
  rcases inherit_definitions_cases pass edge with he | ⟨hopen, parent, child, -, he, -⟩
  · rw [he]
  · unfold Definitions.IsDatatype at hopen ⊢
    rw [he]
    by_cases hiri : iri = edge.2
    · subst hiri
      simp [hopen]
    · simp [hiri]

theorem constraint?_inherit_of_ne {pass : Pass} {edge : Iri × Iri} (h : iri ≠ edge.2) (p : Iri) :
    (pass.inherit edge).definitions.constraint? iri p = pass.definitions.constraint? iri p := by
  unfold Definitions.constraint? Definitions.restricted?
  rw [get?_inherit_of_ne h]

/-- A step composes nothing new: what the child has after it comes from the child's sources, as long
as these include those of what the parent has. -/
theorem composed_inherit {pass : Pass} {edge : Iri × Iri}
    {sources : Iri → Iri → PropertyConstraints → Prop}
    (hcomposed : ∀ iri p c, pass.definitions.constraint? iri p = some c →
      c.ComposedOf (sources iri p))
    (along : ¬ pass.definitions.IsDatatype edge.2 → ∀ p c,
      pass.definitions.constraint? edge.1 p = some c → c.ComposedOf (sources edge.2 p)) :
    ∀ iri p c, (pass.inherit edge).definitions.constraint? iri p = some c →
      c.ComposedOf (sources iri p) := by
  intro iri p c hc
  by_cases hiri : iri = edge.2
  · subst hiri
    rcases inherit_definitions_cases pass edge with he | ⟨hopen, parent, child, hparent, he,
      «class», hchild⟩
    · rw [he] at hc
      exact hcomposed edge.2 p c hc
    · have hnew : child.get? p = some c := by
        rwa [he, Definitions.constraint?, Definitions.restricted?_insert, if_pos rfl,
          Option.bind_some] at hc
      rw [hchild p] at hnew
      cases hget : parent.get? p with
      | none =>
        rw [hget] at hnew
        exact hcomposed edge.2 p c hnew
      | some inherited =>
        rw [hget] at hnew
        have hinherited : pass.definitions.constraint? edge.1 p = some inherited := by
          rw [Definitions.constraint?_of_restricted hparent, hget]
        obtain rfl := Option.some.inj hnew
        exact .handedDown (hcomposed edge.2 p) (along hopen p inherited hinherited) «class»
  · rw [constraint?_inherit_of_ne hiri] at hc
    exact hcomposed iri p c hc

end Pass

/-- A class that has inherited constraints from one that reaches it. -/
structure Inherited (children : OrderedMap Iri (List Iri)) (definitions reached : Definitions)
    (iri : Iri) : Prop where
  plain : ¬ definitions.IsDatatype iri
  origin : ∃ origin first, Reaches children definitions origin iri ∧
    definitions.restricted? origin = some first
  restricted : ∃ c, reached.restricted? iri = some c

theorem get?_run_cases (definitions : Definitions) (children : OrderedMap Iri (List Iri)) (n : Nat)
    (iri : Iri) : (run definitions children n).definitions.get? iri = definitions.get? iri ∨
      Inherited children definitions (run definitions children n).definitions iri := by
  refine run_induction children definitions n (motive := fun reached _ ↦ ∀ iri,
    reached.get? iri = definitions.get? iri ∨ Inherited children definitions reached iri)
    (fun _ ↦ .inl rfl) ?_ iri
  intro pass edge hedge h iri
  rcases Pass.inherit_definitions_cases pass edge with he | ⟨hopen, parent, child, hparent, he, -⟩
  · rw [he]
    exact h iri
  · by_cases hiri : iri = edge.2
    · right
      rw [hiri]
      have hplain : ¬ definitions.IsDatatype edge.2 := by
        rcases h edge.2 with hsame | hchild
        · unfold Definitions.IsDatatype at hopen ⊢
          rwa [hsame] at hopen
        · exact hchild.plain
      have hrestricted : ∃ c, (pass.inherit edge).definitions.restricted? edge.2 = some c := by
        rw [he, Definitions.restricted?_insert, if_pos rfl]
        exact ⟨child, rfl⟩
      rcases h edge.1 with hsame | hfirst
      · have hown : definitions.restricted? edge.1 = some parent := by
          rwa [Definitions.restricted?, ← hsame]
        exact ⟨hplain, ⟨edge.1, parent, (Reaches.refl edge.1).step hedge hplain, hown⟩, hrestricted⟩
      · obtain ⟨origin, first, hpath, hfirst⟩ := hfirst.origin
        exact ⟨hplain, ⟨origin, first, hpath.step hedge hplain, hfirst⟩, hrestricted⟩
    · have hget : (pass.inherit edge).definitions.get? iri = pass.definitions.get? iri :=
        Pass.get?_inherit_of_ne hiri
      rcases h iri with hsame | hchild
      · exact .inl (hget.trans hsame)
      · refine .inr ⟨hchild.plain, hchild.origin, ?_⟩
        unfold Definitions.restricted?
        rw [hget]
        exact hchild.restricted

theorem get?_datatype_run_iff {words : DatatypeConstraints} :
    (run definitions children n).definitions.get? iri = some (.datatype words) ↔
      definitions.get? iri = some (.datatype words) := by
  rcases get?_run_cases definitions children n iri with hsame | hinherited
  · rw [hsame]
  · obtain ⟨c, hc⟩ := hinherited.restricted
    constructor
    · intro hwords
      exact absurd ⟨words, hwords⟩ (Definitions.not_isDatatype_of_restricted hc)
    · intro hwords
      exact absurd ⟨words, hwords⟩ hinherited.plain

theorem isDatatype_run_iff :
    (run definitions children n).definitions.IsDatatype iri ↔ definitions.IsDatatype iri :=
  exists_congr fun _ ↦ get?_datatype_run_iff

theorem run_extends : (run definitions children n).definitions.Extends definitions :=
  run_induction children definitions n (motive := fun reached _ ↦ reached.Extends definitions)
    (.refl definitions) fun pass edge _ h ↦ (Pass.inherit_extends pass edge).trans h

/-- What constraints are put together from. The sources may depend on what has been reached, as long
as they grow with it and an edge makes those of its parent available to its child. -/
theorem composed_run (sources : Definitions → Iri → Iri → PropertyConstraints → Prop)
    (start : ∀ iri p c, definitions.constraint? iri p = some c →
      c.ComposedOf (sources definitions iri p))
    (grow : ∀ (reached later : Definitions) iri p d, later.Extends reached →
      sources reached iri p d → d.ComposedOf (sources later iri p))
    (along : ∀ (reached : Definitions) edge, edge ∈ edgesOf children →
      ¬ definitions.IsDatatype edge.2 → ∀ p c, reached.constraint? edge.1 p = some c →
      c.ComposedOf (sources reached edge.1 p) → c.ComposedOf (sources reached edge.2 p))
    {c : PropertyConstraints}
    (h : (run definitions children n).definitions.constraint? iri p = some c) :
    c.ComposedOf (sources (run definitions children n).definitions iri p) := by
  -- that datatypes stay is carried along, since a step looks at those that it finds
  have hrun := run_induction children definitions n (motive := fun reached _ ↦
    (∀ iri, reached.IsDatatype iri ↔ definitions.IsDatatype iri) ∧
    ∀ iri p c, reached.constraint? iri p = some c → c.ComposedOf (sources reached iri p))
    ⟨fun _ ↦ Iff.rfl, start⟩ ?_
  · exact hrun.2 iri p c h
  · intro pass edge hedge hreached
    obtain ⟨hdatatypes, hcomposed⟩ := hreached
    refine ⟨fun iri ↦ (Pass.isDatatype_inherit_iff pass edge).trans (hdatatypes iri), ?_⟩
    intro iri p c hc
    have hstep : c.ComposedOf (sources pass.definitions iri p) := by
      refine Pass.composed_inherit hcomposed ?_ iri p c hc
      intro hopen q d hd
      rw [hdatatypes] at hopen
      exact along pass.definitions edge hedge hopen q d hd (hcomposed edge.1 q d hd)
    exact hstep.trans fun d hd ↦ grow _ _ iri p d (Pass.inherit_extends pass edge) hd

theorem composedOf_inheritable {c : PropertyConstraints}
    (h : (run definitions children n).definitions.constraint? iri p = some c) :
    c.ComposedOf (Inheritable children definitions iri p) := by
  refine composed_run (fun _ ↦ Inheritable children definitions) ?_ ?_ ?_ h
  · intro iri p c hc
    exact .of_source ⟨iri, .refl iri, hc⟩
  · intro _ _ iri p d _ hd
    exact .of_source hd
  · intro _ edge hedge hopen p c _ hcomposed
    apply hcomposed.trans
    intro d hd
    obtain ⟨origin, hpath, horigin⟩ := hd
    exact .of_source ⟨origin, hpath.step hedge hopen, horigin⟩

theorem Reaches.handed_down (hquiet : (run definitions children n).quiet = true)
    (hpath : Reaches children definitions origin «class») {first : ClassConstraints}
    (hfirst : (run definitions children n).definitions.restricted? origin = some first) :
    ∃ c, (run definitions children n).definitions.restricted? «class» = some c ∧
      ∀ p inherited, first.get? p = some inherited → ∃ own, c.get? p = some own := by
  induction hpath with
  | refl => exact ⟨first, hfirst, fun p own hown ↦ ⟨own, hown⟩⟩
  | @step parent child path edge hplain ih =>
    obtain ⟨c, hc, hproperties⟩ := ih
    rcases (run_of_quiet hquiet (parent, child) edge).1 c hc with hdatatype | ⟨own, hown, hall⟩
    · exact absurd (isDatatype_run_iff.1 hdatatype) hplain
    · refine ⟨own, hown, ?_⟩
      intro p inherited hinherited
      obtain ⟨between, hbetween⟩ := hproperties p inherited hinherited
      obtain ⟨final, hfinal, -⟩ := hall p between hbetween
      exact ⟨final, hfinal⟩

theorem restricted_run_iff (hquiet : (run definitions children n).quiet = true) :
    (∃ c, (run definitions children n).definitions.restricted? iri = some c) ↔
      ∃ origin first, Reaches children definitions origin iri ∧
        definitions.restricted? origin = some first := by
  constructor
  · intro h
    obtain ⟨c, hc⟩ := h
    rcases get?_run_cases definitions children n iri with hsame | hinherited
    · refine ⟨iri, c, .refl iri, ?_⟩
      rwa [Definitions.restricted?, ← hsame]
    · exact hinherited.origin
  · intro h
    obtain ⟨origin, first, hpath, hfirst⟩ := h
    obtain ⟨first', hfirst', -⟩ := run_extends origin first hfirst
    obtain ⟨c, hc, -⟩ := hpath.handed_down hquiet hfirst'
    exact ⟨c, hc⟩

theorem constrained_run_iff (hquiet : (run definitions children n).quiet = true) :
    (∃ c, (run definitions children n).definitions.constraint? iri p = some c) ↔
      ∃ source, Inheritable children definitions iri p source := by
  constructor
  · intro h
    obtain ⟨c, hc⟩ := h
    exact (composedOf_inheritable hc).source
  · intro h
    obtain ⟨source, origin, hpath, hsource⟩ := h
    obtain ⟨kept, hkept, -⟩ := run_extends.constraint? hsource
    obtain ⟨first, hfirst, hget⟩ := Definitions.constraint?_eq_some_iff.1 hkept
    obtain ⟨c, hc, hproperties⟩ := hpath.handed_down hquiet hfirst
    obtain ⟨own, hown⟩ := hproperties p kept hget
    exact ⟨own, Definitions.constraint?_eq_some_iff.2 ⟨c, hc, hown⟩⟩

/-- A quiet run gives a class constraints on exactly the properties that it or a class reaching it
constrained, with no field that none of them had, and keeps its own fields and all datatypes. -/
theorem inherits_exactly (definitions : Definitions) (children : OrderedMap Iri (List Iri))
    (maxPasses : Nat) (hquiet : (run definitions children maxPasses).quiet = true) :
    (∀ «class» p, (∃ c, (run definitions children maxPasses).definitions.constraint? «class» p =
      some c) ↔ ∃ source, Inheritable children definitions «class» p source) ∧
    (∀ «class» p c, (run definitions children maxPasses).definitions.constraint? «class» p = some c →
      c.ComposedOf (Inheritable children definitions «class» p)) ∧
    (∀ «class» p own, definitions.constraint? «class» p = some own →
      ∃ c, (run definitions children maxPasses).definitions.constraint? «class» p = some c ∧
        c.Extends own) ∧
    ∀ iri words, (run definitions children maxPasses).definitions.get? iri =
      some (.datatype words) ↔ definitions.get? iri = some (.datatype words) := by
  refine ⟨?_, ?_, ?_, ?_⟩
  · intro «class» p
    exact constrained_run_iff hquiet
  · intro «class» p c hc
    exact composedOf_inheritable hc
  · intro «class» p own hown
    exact run_extends.constraint? hown
  · intro iri words
    exact get?_datatype_run_iff

/-- A bounded class above an unconstrained one, which has a datatype and a class that is not defined
below it; below the datatype there is one more class. -/
def aboveDatatype : Definitions := .ofList
  [("A", .restricted
      { «class» := "A", properties := .ofList [("p", { PropertyConstraints.unset "A" "p" with min := some 2 })] }),
    ("B", .unconstrained), ("D", .datatype { «class» := "D" })]

def datatypeEdges : OrderedMap Iri (List Iri) :=
  .ofList [("D", ["E"]), ("B", ["C", "D"]), ("A", ["B"])]

theorem inherits_exactly_aboveDatatype :
    (run aboveDatatype datatypeEdges 4).quiet = true ∧
      (∃ c, (run aboveDatatype datatypeEdges 4).definitions.constraint? "C" "p" = some c ∧
        c.ComposedOf (Inheritable datatypeEdges aboveDatatype "C" "p")) ∧
      ¬ ∃ source, Inheritable datatypeEdges aboveDatatype "E" "p" source := by
  have hquiet : (run aboveDatatype datatypeEdges 4).quiet = true := by decide +kernel
  have h := inherits_exactly aboveDatatype datatypeEdges 4 hquiet
  have hfirst : ("A", "B") ∈ edgesOf datatypeEdges := by decide +kernel
  have hsecond : ("B", "C") ∈ edgesOf datatypeEdges := by decide +kernel
  have hpath : Reaches datatypeEdges aboveDatatype "A" "C" :=
    ((Reaches.refl "A").step hfirst (by decide +kernel)).step hsecond (by decide +kernel)
  have hsource : (aboveDatatype.constraint? "A" "p").isSome = true := by decide +kernel
  obtain ⟨source, hsource⟩ := Option.isSome_iff_exists.1 hsource
  obtain ⟨c, hc⟩ := (h.1 "C" "p").2 ⟨source, "A", hpath, hsource⟩
  refine ⟨hquiet, ⟨c, hc, h.2.1 "C" "p" c hc⟩, ?_⟩
  intro hinheritable
  obtain ⟨c, hc⟩ := (h.1 "E" "p").2 hinheritable
  have hnone : (run aboveDatatype datatypeEdges 4).definitions.constraint? "E" "p" = none := by
    decide +kernel
  cases hnone.symm.trans hc

end Inheritance

end OntologyGuard
