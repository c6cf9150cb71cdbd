import OntologyGuard.Proofs.Hierarchy.Path
import OntologyGuard.Proofs.Inheritance.Completion

/-!
Hierarchies in which a class has at most one parent. The order of the edges makes no difference there,
conflicts or not: level by level the classes end as completions of the same parts.
-/

namespace OntologyGuard.Inheritance

open Hierarchy PropertyConstraints

variable {children children' : OrderedMap Iri (List Iri)} {definitions stage : Definitions}
  {n n' : Nat} {iri p : Iri} {c d : PropertyConstraints} {r : Diagnostic}

def SingleParent (children : OrderedMap Iri (List Iri)) : Prop :=
  ∀ parent parent' child, (parent, child) ∈ edgesOf children →
    (parent', child) ∈ edgesOf children → parent = parent'

def FromParent (children : OrderedMap Iri (List Iri)) (definitions : Definitions) (iri p : Iri)
    (d : PropertyConstraints) : Prop :=
  ∃ parent, (parent, iri) ∈ edgesOf children ∧ definitions.constraint? parent p = some d

theorem composed_of_parents
    (hc : (run definitions children n).definitions.constraint? iri p = some c) :
    c.ComposedOf fun d ↦ definitions.constraint? iri p = some d ∨
      FromParent children (run definitions children n).definitions iri p d := by
  refine composed_run (fun reached iri p d ↦ definitions.constraint? iri p = some d ∨
    FromParent children reached iri p d) ?_ ?_ ?_ hc
  · intro iri p c hc
    exact .of_source (.inl hc)
  · intro reached later iri p d hlater hd
    rcases hd with hown | ⟨parent, hedge, hparent⟩
    · exact .of_source (.inl hown)
    · obtain ⟨d', hd', hextends⟩ := hlater.constraint? hparent
      exact .of_extends (.inr ⟨parent, hedge, hd'⟩) hextends
  · intro reached edge hedge _ p c hc _
    exact .of_source (.inr ⟨edge.1, hedge, hc⟩)

theorem absorbs_of_quiet (hquiet : (run definitions children n).quiet = true)
    (hplain : ¬ definitions.IsDatatype iri)
    (hd : FromParent children (run definitions children n).definitions iri p d) :
    ∃ c, (run definitions children n).definitions.constraint? iri p = some c ∧ c.Absorbs d := by
  obtain ⟨parent, hedge, hparent⟩ := hd
  obtain ⟨first, hfirst, hget⟩ := Definitions.constraint?_eq_some_iff.1 hparent
  rcases (run_of_quiet hquiet (parent, iri) hedge).1 first hfirst with hdatatype |
    ⟨own, hown, hall⟩
  · exact absurd (isDatatype_run_iff.1 hdatatype) hplain
  · obtain ⟨c, hc, habsorbs⟩ := hall p d hget
    exact ⟨c, Definitions.constraint?_eq_some_iff.2 ⟨own, hown, hc⟩, habsorbs⟩

theorem plain_of_constraint (hc : (run definitions children n).definitions.constraint? iri p = some c) :
    ¬ definitions.IsDatatype iri := by
  obtain ⟨constraints, hconstraints, -⟩ := Definitions.constraint?_eq_some_iff.1 hc
  intro hdatatype
  exact Definitions.not_isDatatype_of_restricted hconstraints (isDatatype_run_iff.2 hdatatype)

theorem SingleParent.exists_inherited (h : SingleParent children) (definitions : Definitions)
    (iri p : Iri) : ∃ inherited : Option PropertyConstraints, ∀ d,
      FromParent children definitions iri p d ↔ inherited = some d := by
  by_cases hsome : ∃ d, FromParent children definitions iri p d
  · obtain ⟨d, parent, hedge, hparent⟩ := hsome
    refine ⟨some d, fun d' ↦ ⟨?_, ?_⟩⟩
    · intro hd'
      obtain ⟨parent', hedge', hparent'⟩ := hd'
      obtain rfl := h parent parent' iri hedge hedge'
      rw [← hparent, hparent']
    · intro hd'
      obtain rfl := Option.some.inj hd'
      exact ⟨parent, hedge, hparent⟩
  · exact ⟨none, fun d ↦ iff_of_false (fun hd ↦ hsome ⟨d, hd⟩) (by simp)⟩

theorem completes_run (hquiet : (run definitions children n).quiet = true)
    (huncrossed : definitions.Uncrossed) {inherited : Option PropertyConstraints}
    (hinherited : ∀ d, FromParent children (run definitions children n).definitions iri p d ↔
      inherited = some d)
    (hc : (run definitions children n).definitions.constraint? iri p = some c) :
    Completes (definitions.constraint? iri p) inherited c where
  composed := (composed_of_parents hc).trans fun d hd ↦ .of_source (hd.imp_right (hinherited d).1)
  keeps o ho := by
    obtain ⟨c', hc', hextends⟩ := run_extends.constraint? ho
    obtain rfl := Option.some.inj (hc.symm.trans hc')
    exact hextends
  absorbs d hd := by
    obtain ⟨c', hc', habsorbs⟩ := absorbs_of_quiet hquiet (plain_of_constraint hc)
      ((hinherited d).2 hd)
    obtain rfl := Option.some.inj (hc.symm.trans hc')
    exact habsorbs
  uncrossed := (run_uncrossed huncrossed).constraint? hc

theorem FromParent.transfer {later : Definitions}
    (hedges : ∀ edge ∈ edgesOf children, edge ∈ edgesOf children')
    (hparents : ∀ parent, (parent, iri) ∈ edgesOf children →
      (definitions.constraint? parent p).map (·.plain) = (later.constraint? parent p).map (·.plain))
    (hd : FromParent children definitions iri p d) :
    ∃ d', FromParent children' later iri p d' ∧ d'.plain = d.plain := by
  obtain ⟨parent, hedge, hparent⟩ := hd
  obtain ⟨d', hd', hplain⟩ := exists_plain_eq (hparents parent hedge) hparent
  exact ⟨d', ⟨parent, hedges _ hedge, hd'⟩, hplain⟩

theorem FromParent.uncrossed (h : definitions.Uncrossed)
    (hd : FromParent children definitions iri p d) : d.Uncrossed := by
  obtain ⟨parent, -, hparent⟩ := hd
  exact h.constraint? hparent

theorem inherited_plain_eq {later : Definitions} {inherited inherited' : Option PropertyConstraints}
    (hreordered : Reordered children children')
    (hinherited : ∀ d, FromParent children definitions iri p d ↔ inherited = some d)
    (hinherited' : ∀ d, FromParent children' later iri p d ↔ inherited' = some d)
    (hparents : ∀ parent, (parent, iri) ∈ edgesOf children →
      (definitions.constraint? parent p).map (·.plain) = (later.constraint? parent p).map (·.plain)) :
    inherited.map (·.plain) = inherited'.map (·.plain) := by
  ext q
  rw [Option.map_eq_some_iff, Option.map_eq_some_iff]
  constructor
  · intro h
    obtain ⟨d, hd, rfl⟩ := h
    obtain ⟨d', hd', hplain⟩ := ((hinherited d).2 hd).transfer
      (fun _ ↦ hreordered.mem_edgesOf_iff.1) hparents
    exact ⟨d', (hinherited' d').1 hd', hplain⟩
  · intro h
    obtain ⟨d', hd', rfl⟩ := h
    obtain ⟨d, hd, hplain⟩ := ((hinherited' d').2 hd').transfer
      (fun _ ↦ hreordered.mem_edgesOf_iff.2)
      fun parent hedge ↦ (hparents parent (hreordered.mem_edgesOf_iff.2 hedge)).symm
    exact ⟨d, (hinherited d).1 hd, hplain⟩

theorem constrained_run_iff_of_reordered (hreordered : Reordered children children')
    (hquiet : (run definitions children n).quiet = true)
    (hquiet' : (run definitions children' n').quiet = true) :
    (∃ c, (run definitions children n).definitions.constraint? iri p = some c) ↔
      ∃ c, (run definitions children' n').definitions.constraint? iri p = some c := by
  rw [constrained_run_iff hquiet, constrained_run_iff hquiet']
  constructor
  · intro h
    obtain ⟨source, hsource⟩ := h
    exact ⟨source, hsource.mono fun _ ↦ hreordered.mem_edgesOf_iff.1⟩
  · intro h
    obtain ⟨source, hsource⟩ := h
    exact ⟨source, hsource.mono fun _ ↦ hreordered.mem_edgesOf_iff.2⟩

theorem SingleParent.reordered (h : SingleParent children)
    (hreordered : Reordered children children') : SingleParent children' := by
  intro parent parent' child hedge hedge'
  exact h parent parent' child (hreordered.mem_edgesOf_iff.2 hedge)
    (hreordered.mem_edgesOf_iff.2 hedge')

section Order

variable (hlabelled : definitions.Labelled) (huncrossed : definitions.Uncrossed)
  (hsingle : SingleParent children) (hreordered : Reordered children children')
  (hquiet : (run definitions children n).quiet = true)
  (hquiet' : (run definitions children' n').quiet = true)

include hlabelled huncrossed hsingle hreordered hquiet hquiet'

theorem constraint_run_eq_of_parents
    (hparents : ∀ parent, (parent, iri) ∈ edgesOf children →
      ((run definitions children n).definitions.constraint? parent p).map (·.plain) =
        ((run definitions children' n').definitions.constraint? parent p).map (·.plain)) :
    ((run definitions children n).definitions.constraint? iri p).map (·.plain) =
      ((run definitions children' n').definitions.constraint? iri p).map (·.plain) := by
  have hiff : (∃ c, (run definitions children n).definitions.constraint? iri p = some c) ↔
      ∃ c, (run definitions children' n').definitions.constraint? iri p = some c :=
    constrained_run_iff_of_reordered hreordered hquiet hquiet'
  cases hc : (run definitions children n).definitions.constraint? iri p with
  | none =>
    cases hc' : (run definitions children' n').definitions.constraint? iri p with
    | none => rfl
    | some c' =>
      obtain ⟨c, hsome⟩ := hiff.2 ⟨c', hc'⟩
      cases hc.symm.trans hsome
  | some c =>
    obtain ⟨c', hc'⟩ := hiff.1 ⟨c, hc⟩
    obtain ⟨inherited, hinherited⟩ :=
      hsingle.exists_inherited (run definitions children n).definitions iri p
    obtain ⟨inherited', hinherited'⟩ :=
      (hsingle.reordered hreordered).exists_inherited (run definitions children' n').definitions iri p
    have hfields := (completes_run hquiet huncrossed hinherited hc).fields_eq
      (completes_run hquiet' huncrossed hinherited' hc')
      (inherited_plain_eq hreordered hinherited hinherited' hparents)
      (fun d hd ↦ ((hinherited d).2 hd).uncrossed (run_uncrossed huncrossed))
      (fun d hd ↦ ((hinherited' d).2 hd).uncrossed (run_uncrossed huncrossed))
    obtain ⟨hclass, hproperty⟩ := (run_labelled hlabelled).constraint? hc
    obtain ⟨hclass', hproperty'⟩ := (run_labelled hlabelled).constraint? hc'
    rw [hc', Option.map_some, Option.map_some, plain_eq_iff.2]
    exact ⟨hclass.trans hclass'.symm, hproperty.trans hproperty'.symm, hfields⟩

theorem constraint_run_eq_within (level : Nat) (hwithin : Within (edgesOf children) level iri) :
    ((run definitions children n).definitions.constraint? iri p).map (·.plain) =
      ((run definitions children' n').definitions.constraint? iri p).map (·.plain) := by
  induction level generalizing iri with
  | zero =>
    apply constraint_run_eq_of_parents hlabelled huncrossed hsingle hreordered hquiet hquiet'
    intro parent hedge
    exact absurd hedge hwithin.not_mem
  | succ level ih =>
    apply constraint_run_eq_of_parents hlabelled huncrossed hsingle hreordered hquiet hquiet'
    intro parent hedge
    exact ih (hwithin.parent hedge)

end Order

theorem exists_stage_of_mem (hlabelled : definitions.Labelled) (huncrossed : definitions.Uncrossed)
    (hr : r ∈ (afterPasses children definitions n).diagnostics) :
    ∃ stage : Definitions, stage.Labelled ∧ stage.Uncrossed ∧ stage.Extends definitions ∧
      (run definitions children n).definitions.Extends stage ∧
      ∃ edge ∈ edgesOf children, r ∈ Pass.reports stage edge := by
  have hrun := run_induction children definitions n (motive := fun reached found ↦
    (reached.Labelled ∧ reached.Uncrossed ∧ reached.Extends definitions) ∧
    ∀ r ∈ found, ∃ stage : Definitions, stage.Labelled ∧ stage.Uncrossed ∧
      stage.Extends definitions ∧ reached.Extends stage ∧
      ∃ edge ∈ edgesOf children, r ∈ Pass.reports stage edge)
    ⟨⟨hlabelled, huncrossed, .refl definitions⟩, fun _ hr ↦ absurd hr List.not_mem_nil⟩ ?_
  · exact hrun.2 r hr
  · intro pass edge hedge hreached
    obtain ⟨⟨hlabelled, huncrossed, hextends⟩, hfound⟩ := hreached
    have hstep := Pass.inherit_extends pass edge
    refine ⟨⟨Pass.inherit_labelled hlabelled edge, Pass.inherit_uncrossed huncrossed edge,
      hstep.trans hextends⟩, ?_⟩
    intro r hr
    rw [Pass.diagnostics_inherit, List.mem_append] at hr
    rcases hr with hr | hr
    · obtain ⟨stage, hstage, hstage', hbefore, hafter, hreported⟩ := hfound r hr
      exact ⟨stage, hstage, hstage', hbefore, hstep.trans hafter, hreported⟩
    · exact ⟨pass.definitions, hlabelled, huncrossed, hextends, hstep, edge, hedge, hr⟩

theorem Pass.mem_reports_iff {edge : Iri × Iri} : r ∈ Pass.reports definitions edge ↔
    ∃ p own inherited, definitions.constraint? edge.2 p = some own ∧
      definitions.constraint? edge.1 p = some inherited ∧ r ∈ (own.mergeParent inherited).2 := by
  rw [Pass.mem_reports]
  constructor
  · intro h
    obtain ⟨parent, child, hparent, hchild, hr⟩ := h
    obtain ⟨p, own, inherited, hown, hinherited, hr⟩ :=
      ClassConstraints.mem_diagnostics_mergeParent.1 hr
    refine ⟨p, own, inherited, ?_, ?_, hr⟩
    · rw [Definitions.constraint?_of_restricted hchild, hown]
    · rw [Definitions.constraint?_of_restricted hparent, hinherited]
  · intro h
    obtain ⟨p, own, inherited, hown, hinherited, hr⟩ := h
    obtain ⟨child, hchild, hown⟩ := Definitions.constraint?_eq_some_iff.1 hown
    obtain ⟨parent, hparent, hinherited⟩ := Definitions.constraint?_eq_some_iff.1 hinherited
    exact ⟨parent, child, hparent, hchild,
      ClassConstraints.mem_diagnostics_mergeParent.2 ⟨p, own, inherited, hown, hinherited, hr⟩⟩

theorem mem_diagnostics_run_iff (hlabelled : definitions.Labelled)
    (huncrossed : definitions.Uncrossed) (hsingle : SingleParent children)
    (hquiet : (run definitions children n).quiet = true) :
    r ∈ (run definitions children n).diagnostics ↔ ∃ edge ∈ edgesOf children,
      r ∈ Pass.reports (run definitions children n).definitions edge := by
  constructor
  · intro hr
    have hpasses := (mem_run_diagnostics_of_quiet hquiet).1 hr
    -- what was reported on the way is reported again once both ends of the edge are complete
    obtain ⟨stage, hstage, hstage', hbefore, hafter, edge, hedge, hr⟩ :=
      exists_stage_of_mem hlabelled huncrossed hpasses
    obtain ⟨p, own, inherited, hown, hinherited, hr⟩ := Pass.mem_reports_iff.1 hr
    obtain ⟨c, hc, hcextends⟩ := hafter.constraint? hown
    obtain ⟨d, hd, hdextends⟩ := hafter.constraint? hinherited
    obtain ⟨inherited', hinherited'⟩ :=
      hsingle.exists_inherited (run definitions children n).definitions edge.2 p
    obtain rfl : inherited' = some d := (hinherited' d).1 ⟨edge.1, hedge, hd⟩
    have hcompletes := completes_run hquiet huncrossed hinherited' hc
    have hlabel := hstage.constraint? hown
    have hlabel' := (run_labelled hlabelled).constraint? hc
    have horigin := (hstage.constraint? hinherited).1
    have horigin' := ((run_labelled hlabelled).constraint? hd).1
    refine ⟨edge, hedge, Pass.mem_reports_iff.2 ⟨p, c, d, hc, hd, ?_⟩⟩
    refine hcompletes.mem_mergeParent ((run_uncrossed huncrossed).constraint? hd) ?_ hcextends
      hdextends (hstage'.constraint? hinherited) (hlabel'.1.trans hlabel.1.symm)
      (hlabel'.2.trans hlabel.2.symm) (horigin'.trans horigin.symm) hr
    intro o ho
    obtain ⟨own', hown', hextends⟩ := hbefore.constraint? ho
    obtain rfl := Option.some.inj (hown.symm.trans hown')
    exact hextends
  · intro h
    obtain ⟨edge, hedge, hr⟩ := h
    exact (run_of_quiet hquiet edge hedge).2 r hr

theorem Pass.mem_reports_of_plain {later : Definitions} {edge : Iri × Iri}
    (hsame : ∀ iri p, (definitions.constraint? iri p).map (·.plain) =
      (later.constraint? iri p).map (·.plain))
    (hr : r ∈ Pass.reports definitions edge) : r ∈ Pass.reports later edge := by
  obtain ⟨p, own, inherited, hown, hinherited, hr⟩ := Pass.mem_reports_iff.1 hr
  obtain ⟨own', hown', hplain⟩ := exists_plain_eq (hsame edge.2 p) hown
  obtain ⟨inherited', hinherited', hplain'⟩ := exists_plain_eq (hsame edge.1 p) hinherited
  refine Pass.mem_reports_iff.2 ⟨p, own', inherited', hown', hinherited', ?_⟩
  rwa [← mergeParent_plain, hplain, hplain', mergeParent_plain]

/-- Where no class has two parents, all orders of the edges lead to the same definitions and the same
reports. -/
theorem order_irrelevant_of_singleParent (definitions : Definitions)
    (children children' : OrderedMap Iri (List Iri)) (n n' : Nat) (hlabelled : definitions.Labelled)
    (huncrossed : definitions.Uncrossed) (hacyclic : Acyclic (edgesOf children))
    (hsingle : SingleParent children) (hreordered : Reordered children children')
    (hquiet : (run definitions children n).quiet = true)
    (hquiet' : (run definitions children' n').quiet = true) :
    (run definitions children n).definitions.plain.Alike
        (run definitions children' n').definitions.plain ∧
      ∀ r, r ∈ (run definitions children n).diagnostics ↔
        r ∈ (run definitions children' n').diagnostics := by
  have hchildren : ∀ edge ∈ edgesOf children, edge.2 ∈ (edgesOf children).map Prod.snd :=
    fun edge hedge ↦ List.mem_map_of_mem hedge
  obtain ⟨height, hheight, -⟩ := hacyclic.exists_isHeight hchildren
  have hsame (iri p : Iri) :
      ((run definitions children n).definitions.constraint? iri p).map (·.plain) =
        ((run definitions children' n').definitions.constraint? iri p).map (·.plain) :=
    constraint_run_eq_within hlabelled huncrossed hsingle hreordered hquiet hquiet' height
      fun m a path ↦ hheight.bound m a iri path
  constructor
  · apply Definitions.alike_plain (run_labelled hlabelled) (run_labelled hlabelled) _ hsame
    exact get?_run_of_reordered hreordered hquiet hquiet'
  · intro r
    rw [mem_diagnostics_run_iff hlabelled huncrossed hsingle hquiet,
      mem_diagnostics_run_iff hlabelled huncrossed (hsingle.reordered hreordered) hquiet']
    constructor
    · intro h
      obtain ⟨edge, hedge, hr⟩ := h
      exact ⟨edge, hreordered.mem_edgesOf_iff.1 hedge, Pass.mem_reports_of_plain hsame hr⟩
    · intro h
      obtain ⟨edge, hedge, hr⟩ := h
      exact ⟨edge, hreordered.mem_edgesOf_iff.2 hedge,
        Pass.mem_reports_of_plain (fun iri p ↦ (hsame iri p).symm) hr⟩

/-- A chain in which the second class cannot take the lower bound of the first, nor the fourth the
upper bound of the second. -/
def conflictingClasses : List ClassDescription :=
  [boundedClass "A" Owl.minCardinality "2", boundedClass "B" Owl.maxCardinality "1",
    { iri := "C" }, boundedClass "D" Owl.minCardinality "3"]

def conflictingChain : Definitions := (Definitions.ofClasses conflictingClasses).1

def fromAbove : OrderedMap Iri (List Iri) := .ofList [("A", ["B"]), ("B", ["C", "D"])]

def fromBelow : OrderedMap Iri (List Iri) := .ofList [("B", ["D", "C"]), ("A", ["B"])]

theorem order_irrelevant_conflictingChain :
    conflictingChain.Labelled ∧ conflictingChain.Uncrossed ∧ Acyclic (edgesOf fromAbove) ∧
      SingleParent fromAbove ∧ Reordered fromAbove fromBelow ∧
      (run conflictingChain fromAbove 5).quiet = true ∧
      (run conflictingChain fromBelow 5).quiet = true ∧
      (run conflictingChain fromAbove 5).diagnostics ≠ [] ∧
      (run conflictingChain fromAbove 5).definitions.plain.Alike
        (run conflictingChain fromBelow 5).definitions.plain ∧
      ∀ r, r ∈ (run conflictingChain fromAbove 5).diagnostics ↔
        r ∈ (run conflictingChain fromBelow 5).diagnostics := by
  have hsound := Definitions.ofClasses_sound conflictingClasses
  have hacyclic : Acyclic (edgesOf fromAbove) := by
    apply Acyclic.of_rank fun iri ↦ if iri = "A" then 0 else if iri = "B" then 1 else 2
    decide +kernel
  have hsingle : SingleParent fromAbove := by
    have hall : ∀ edge ∈ edgesOf fromAbove, ∀ edge' ∈ edgesOf fromAbove, edge.2 = edge'.2 →
        edge.1 = edge'.1 := by decide +kernel
    intro parent parent' child hedge hedge'
    exact hall _ hedge _ hedge' rfl
  have hreordered : Reordered fromAbove fromBelow :=
    .of_entries (by decide +kernel) (by decide +kernel)
  have hquiet : (run conflictingChain fromAbove 5).quiet = true := by decide +kernel
  have hquiet' : (run conflictingChain fromBelow 5).quiet = true := by decide +kernel
  have hsome : (run conflictingChain fromAbove 5).diagnostics ≠ [] := by decide +kernel
  obtain ⟨halike, hreports⟩ := order_irrelevant_of_singleParent conflictingChain fromAbove fromBelow
    5 5 hsound.1 hsound.2 hacyclic hsingle hreordered hquiet hquiet'
  exact ⟨hsound.1, hsound.2, hacyclic, hsingle, hreordered, hquiet, hquiet', hsome, halike, hreports⟩

end OntologyGuard.Inheritance
