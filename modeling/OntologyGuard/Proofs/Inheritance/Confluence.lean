import OntologyGuard.Proofs.Hierarchy
import OntologyGuard.Proofs.Inheritance.Lookup
import OntologyGuard.Proofs.Inheritance.Meets
import OntologyGuard.Proofs.Inheritance.Provenance

/-!
Inheritance along the same edges in another order. Where nothing is reported, a class ends with the
tightest fields among those of the classes that reach it, so that the order makes no difference.
-/

namespace OntologyGuard

namespace PropertyConstraints

variable {sources : PropertyConstraints → Prop} {c d : PropertyConstraints}

theorem plain_eq_iff : c.plain = d.plain ↔ c.class = d.class ∧ c.property = d.property ∧
    c.min = d.min ∧ c.max = d.max ∧ c.range = d.range := by
  simp [plain]

theorem exists_plain_eq {own own' : Option PropertyConstraints}
    (h : own.map (·.plain) = own'.map (·.plain)) (hc : own = some c) :
    ∃ c', own' = some c' ∧ c'.plain = c.plain := by
  rw [hc, Option.map_some] at h
  exact Option.map_eq_some_iff.1 h.symm

theorem Extends.atLeastAsTight (h : d.Extends c) : d.AtLeastAsTight c where
  min m hm := ⟨m, h.min m hm, UInt32.le_refl m⟩
  max m hm := ⟨m, h.max m hm, UInt32.le_refl m⟩
  range r hr := h.range r hr

theorem AtLeastAsTight.min_eq_some (h : c.AtLeastAsTight d) (h' : d.AtLeastAsTight c) {m : UInt32}
    (hm : c.min = some m) : d.min = some m := by
  obtain ⟨k, hk, hle⟩ := h'.min m hm
  obtain ⟨l, hl, hle'⟩ := h.min k hk
  obtain rfl := Option.some.inj (hm.symm.trans hl)
  rw [hk, UInt32.le_antisymm hle' hle]

theorem AtLeastAsTight.max_eq_some (h : c.AtLeastAsTight d) (h' : d.AtLeastAsTight c) {m : UInt32}
    (hm : c.max = some m) : d.max = some m := by
  obtain ⟨k, hk, hle⟩ := h'.max m hm
  obtain ⟨l, hl, hle'⟩ := h.max k hk
  obtain rfl := Option.some.inj (hm.symm.trans hl)
  rw [hk, UInt32.le_antisymm hle hle']

theorem AtLeastAsTight.antisymm (h : c.AtLeastAsTight d) (h' : d.AtLeastAsTight c) :
    c.min = d.min ∧ c.max = d.max ∧ c.range = d.range := by
  refine ⟨?_, ?_, ?_⟩
  · ext m
    exact ⟨h.min_eq_some h', h'.min_eq_some h⟩
  · ext m
    exact ⟨h.max_eq_some h', h'.max_eq_some h⟩
  · ext r
    exact ⟨h'.range r, h.range r⟩

theorem ComposedOf.atLeastAsTight (h : c.ComposedOf sources)
    (hd : ∀ s, sources s → d.AtLeastAsTight s) : d.AtLeastAsTight c where
  min m hm := by
    obtain ⟨s, hs, hsm⟩ := h.min m hm
    exact (hd s hs).min m hsm
  max m hm := by
    obtain ⟨s, hs, hsm⟩ := h.max m hm
    exact (hd s hs).max m hsm
  range r hr := by
    obtain ⟨s, hs, hsr⟩ := h.range r hr
    exact (hd s hs).range r hsr

end PropertyConstraints

/-- The constraints with the qualification of every property forgotten. -/
def ClassConstraints.plain (c : ClassConstraints) : ClassConstraints :=
  { c with properties := c.properties.mapValues fun _ constraints ↦ constraints.plain }

theorem ClassConstraints.get?_plain (c : ClassConstraints) (p : Iri) :
    c.plain.get? p = (c.get? p).map (·.plain) :=
  OrderedMap.get?_mapValues _ c.properties p

def ClassDefinition.plain : ClassDefinition → ClassDefinition
  | restricted c => restricted c.plain
  | definition => definition

namespace Definitions

variable {definitions other : Definitions} {iri p : Iri} {c : PropertyConstraints}

theorem Labelled.constraint? (h : definitions.Labelled) (hc : definitions.constraint? iri p = some c) :
    c.class = some iri ∧ c.property = some p := by
  obtain ⟨constraints, hconstraints, hget⟩ := constraint?_eq_some_iff.1 hc
  exact (h iri constraints hconstraints).2 p c hget

def plain (definitions : Definitions) : Definitions :=
  definitions.mapValues fun _ definition ↦ definition.plain

theorem get?_plain (definitions : Definitions) (iri : Iri) :
    definitions.plain.get? iri = (definitions.get? iri).map (·.plain) :=
  OrderedMap.get?_mapValues _ definitions iri

theorem Uncrossed.constraint? (h : definitions.Uncrossed)
    (hc : definitions.constraint? iri p = some c) : c.Uncrossed := by
  obtain ⟨constraints, hconstraints, hget⟩ := constraint?_eq_some_iff.1 hc
  exact h iri constraints hconstraints p c hget

theorem alike_plain (hlabelled : definitions.Labelled) (hlabelled' : other.Labelled)
    (hclasses : ∀ iri, definitions.get? iri = other.get? iri ∨
      (∃ c, definitions.restricted? iri = some c) ∧ ∃ c, other.restricted? iri = some c)
    (hconstraints : ∀ iri p, (definitions.constraint? iri p).map (·.plain) =
      (other.constraint? iri p).map (·.plain)) :
    definitions.plain.Alike other.plain := by
  intro iri
  rcases hclasses iri with hsame | ⟨⟨c, hc⟩, d, hd⟩
  · rw [get?_plain, hsame, ← get?_plain]
    exact Alike.refl other.plain iri
  · rw [get?_plain, get?_plain, restricted?_eq_some_iff.1 hc, restricted?_eq_some_iff.1 hd]
    refine .some (.restricted ⟨?_, fun p ↦ ?_⟩)
    · exact (hlabelled iri c hc).1.trans (hlabelled' iri d hd).1.symm
    · have hp := hconstraints iri p
      rw [constraint?_of_restricted hc, constraint?_of_restricted hd] at hp
      rw [ClassConstraints.get?_plain, ClassConstraints.get?_plain, hp]

end Definitions

namespace Inheritance

variable {children children' : OrderedMap Iri (List Iri)} {definitions : Definitions} {n n' : Nat}
  {origin «class» iri p : Iri} {c : PropertyConstraints}

def Reordered (children children' : OrderedMap Iri (List Iri)) : Prop :=
  ∀ parent, Option.Rel List.Perm (children.get? parent) (children'.get? parent)

theorem Reordered.of_entries
    (h : ∀ entry ∈ children.entries, ∃ list ∈ children'.get? entry.1, entry.2.Perm list)
    (h' : ∀ parent ∈ children'.keys, parent ∈ children.keys) : Reordered children children' := by
  intro parent
  cases hget : children.get? parent with
  | some list =>
    obtain ⟨list', hlist', hperm⟩ := h (parent, list) (OrderedMap.get?_eq_some_iff.1 hget)
    rw [Option.mem_def.1 hlist']
    exact .some hperm
  | none =>
    cases hget' : children'.get? parent with
    | none => exact .none
    | some list' =>
      obtain ⟨list, hlist⟩ := OrderedMap.mem_keys_iff.1
        (h' parent (OrderedMap.mem_keys_iff.2 ⟨list', hget'⟩))
      cases hget.symm.trans hlist

theorem mem_edgesOf {parent child : Iri} :
    (parent, child) ∈ edgesOf children ↔ child ∈ (children.get? parent).getD [] :=
  Hierarchy.mem_edges (h := { children })

theorem Reordered.mem_edgesOf_iff (h : Reordered children children') {edge : Iri × Iri} :
    edge ∈ edgesOf children ↔ edge ∈ edgesOf children' := by
  obtain ⟨parent, child⟩ := edge
  have hparent := h parent
  rw [mem_edgesOf, mem_edgesOf]
  generalize children.get? parent = list, children'.get? parent = list' at hparent ⊢
  cases hparent with
  | none => exact Iff.rfl
  | some hperm => exact hperm.mem_iff

theorem Reordered.symm (h : Reordered children children') : Reordered children' children := by
  intro parent
  have hparent := h parent
  generalize children.get? parent = list, children'.get? parent = list' at hparent ⊢
  cases hparent with
  | none => exact .none
  | some hperm => exact .some hperm.symm

theorem Reaches.mono (h : ∀ edge ∈ edgesOf children, edge ∈ edgesOf children')
    (hpath : Reaches children definitions origin «class») :
    Reaches children' definitions origin «class» := by
  induction hpath with
  | refl => exact .refl _
  | step path edge hplain ih => exact ih.step (h _ edge) hplain

theorem Inheritable.mono (h : ∀ edge ∈ edgesOf children, edge ∈ edgesOf children')
    (hc : Inheritable children definitions iri p c) : Inheritable children' definitions iri p c := by
  obtain ⟨origin, hpath, horigin⟩ := hc
  exact ⟨origin, hpath.mono h, horigin⟩

theorem get?_run_of_reordered (hreordered : Reordered children children')
    (hquiet : (run definitions children n).quiet = true)
    (hquiet' : (run definitions children' n').quiet = true) (iri : Iri) :
    (run definitions children n).definitions.get? iri =
        (run definitions children' n').definitions.get? iri ∨
      (∃ c, (run definitions children n).definitions.restricted? iri = some c) ∧
        ∃ c, (run definitions children' n').definitions.restricted? iri = some c := by
  have hiff : (∃ c, (run definitions children n).definitions.restricted? iri = some c) ↔
      ∃ c, (run definitions children' n').definitions.restricted? iri = some c := by
    rw [restricted_run_iff hquiet, restricted_run_iff hquiet']
    constructor
    · intro h
      obtain ⟨origin, first, hpath, hfirst⟩ := h
      exact ⟨origin, first, hpath.mono fun _ ↦ hreordered.mem_edgesOf_iff.1, hfirst⟩
    · intro h
      obtain ⟨origin, first, hpath, hfirst⟩ := h
      exact ⟨origin, first, hpath.mono fun _ ↦ hreordered.mem_edgesOf_iff.2, hfirst⟩
  rcases get?_run_cases definitions children n iri with hsame | hinherited
  · rcases get?_run_cases definitions children' n' iri with hsame' | hinherited'
    · exact .inl (hsame.trans hsame'.symm)
    · exact .inr ⟨hiff.2 hinherited'.restricted, hinherited'.restricted⟩
  · exact .inr ⟨hinherited.restricted, hiff.1 hinherited.restricted⟩

theorem Reaches.meets (h : (run definitions children n).diagnostics = [])
    (hpath : Reaches children definitions origin «class») :
    (run definitions children n).definitions.Meets «class» origin := by
  induction hpath with
  | refl => exact .refl _ _
  | @step parent child path edge hplain ih =>
    have hedge := meets_of_diagnostics_eq_nil h edge
      fun words hwords ↦ hplain (isDatatype_run_iff.1 ⟨words, hwords⟩)
    exact hedge.trans ih

theorem tight_of_inheritable (h : (run definitions children n).diagnostics = [])
    {source : PropertyConstraints} (hsource : Inheritable children definitions iri p source) :
    ∃ c, (run definitions children n).definitions.constraint? iri p = some c ∧
      c.AtLeastAsTight source := by
  obtain ⟨origin, hpath, horigin⟩ := hsource
  -- the origin may have grown in the run, but what it has in the end implies the source
  obtain ⟨kept, hkept, hextends⟩ := run_extends.constraint? horigin
  obtain ⟨first, hfirst, hget⟩ := Definitions.constraint?_eq_some_iff.1 hkept
  obtain ⟨constraints, hconstraints, hmeets⟩ := hpath.meets h first hfirst
  obtain ⟨own, hown, htight⟩ := hmeets p kept hget
  exact ⟨own, Definitions.constraint?_eq_some_iff.2 ⟨constraints, hconstraints, hown⟩,
    htight.trans hextends.atLeastAsTight⟩

theorem exists_tighter_of_reordered (hreordered : Reordered children children')
    (h' : (run definitions children' n').diagnostics = [])
    (hc : (run definitions children n).definitions.constraint? iri p = some c) :
    ∃ c', (run definitions children' n').definitions.constraint? iri p = some c' ∧
      c'.AtLeastAsTight c := by
  -- each field of the one run is a source's, and the other run is as tight as all sources
  have hcomposed := composedOf_inheritable hc
  have htight : ∀ s, Inheritable children definitions iri p s →
      ∃ c', (run definitions children' n').definitions.constraint? iri p = some c' ∧
        c'.AtLeastAsTight s := by
    intro s hs
    exact tight_of_inheritable h' (hs.mono fun _ ↦ hreordered.mem_edgesOf_iff.1)
  obtain ⟨s, hs⟩ := hcomposed.source
  obtain ⟨c', hc', -⟩ := htight s hs
  refine ⟨c', hc', hcomposed.atLeastAsTight fun t ht ↦ ?_⟩
  obtain ⟨c'', hc'', htight'⟩ := htight t ht
  obtain rfl := Option.some.inj (hc'.symm.trans hc'')
  exact htight'

/-- Two orders of the same edges, cycles or not, lead to the same definitions where neither leads to
a report. A run that is cut off has a report of it. -/
theorem same_definitions_of_no_reports (definitions : Definitions)
    (children children' : OrderedMap Iri (List Iri)) (n n' : Nat) (hlabelled : definitions.Labelled)
    (hreordered : Reordered children children')
    (h : (run definitions children n).diagnostics = [])
    (h' : (run definitions children' n').diagnostics = []) :
    (run definitions children n).definitions.plain.Alike
      (run definitions children' n').definitions.plain := by
  have hquiet := quiet_of_diagnostics_eq_nil h
  have hquiet' := quiet_of_diagnostics_eq_nil h'
  apply Definitions.alike_plain (run_labelled hlabelled) (run_labelled hlabelled)
  · exact get?_run_of_reordered hreordered hquiet hquiet'
  · intro iri p
    cases hc : (run definitions children n).definitions.constraint? iri p with
    | none =>
      cases hc' : (run definitions children' n').definitions.constraint? iri p with
      | none => rfl
      | some c' =>
        obtain ⟨c, hsome, -⟩ := exists_tighter_of_reordered hreordered.symm h hc'
        cases hc.symm.trans hsome
    | some c =>
      obtain ⟨c', hc', htight⟩ := exists_tighter_of_reordered hreordered h' hc
      obtain ⟨c'', hc'', htight'⟩ := exists_tighter_of_reordered hreordered.symm h hc'
      obtain rfl := Option.some.inj (hc.symm.trans hc'')
      obtain ⟨hclass, hproperty⟩ := (run_labelled hlabelled).constraint? hc
      obtain ⟨hclass', hproperty'⟩ := (run_labelled hlabelled).constraint? hc'
      rw [hc', Option.map_some, Option.map_some, PropertyConstraints.plain_eq_iff.2]
      exact ⟨hclass.trans hclass'.symm, hproperty.trans hproperty'.symm, htight'.antisymm htight⟩

/-- Two parents that bound a class from different sides, and a class below it that names one of them
as a parent too. -/
def boundedFromBothSides : Definitions :=
  (Definitions.ofClasses [boundedClass "A" Owl.minCardinality "1",
    boundedClass "B" Owl.maxCardinality "5", { iri := "C" }]).1

def upperFirst : OrderedMap Iri (List Iri) := .ofList [("A", ["C", "D"]), ("B", ["C"]), ("C", ["D"])]

def lowerFirst : OrderedMap Iri (List Iri) := .ofList [("C", ["D"]), ("B", ["C"]), ("A", ["D", "C"])]

theorem reordered_lowerFirst : Reordered upperFirst lowerFirst :=
  .of_entries (by decide +kernel) (by decide +kernel)

theorem same_definitions_boundedFromBothSides :
    boundedFromBothSides.Labelled ∧ Reordered upperFirst lowerFirst ∧
      (run boundedFromBothSides upperFirst 3).diagnostics = [] ∧
      (run boundedFromBothSides lowerFirst 4).diagnostics = [] ∧
      (run boundedFromBothSides upperFirst 3).definitions.plain.Alike
        (run boundedFromBothSides lowerFirst 4).definitions.plain := by
  have hsound := Definitions.ofClasses_sound [boundedClass "A" Owl.minCardinality "1",
    boundedClass "B" Owl.maxCardinality "5", { iri := "C" }]
  have h : (run boundedFromBothSides upperFirst 3).diagnostics = [] := by decide +kernel
  have h' : (run boundedFromBothSides lowerFirst 4).diagnostics = [] := by decide +kernel
  exact ⟨hsound.1, reordered_lowerFirst, h, h',
    same_definitions_of_no_reports boundedFromBothSides upperFirst lowerFirst 3 4 hsound.1
      reordered_lowerFirst h h'⟩

end Inheritance

end OntologyGuard
