import OntologyGuard.Proofs.Hierarchy.Cycles
import OntologyGuard.Proofs.Inheritance.Convergence
import OntologyGuard.Proofs.Ontology.Reports
import OntologyGuard.Proofs.Ontology.Resolution

namespace OntologyGuard.Ontology

open Diagnostic Hierarchy Inheritance

variable {config : ResolverConfig} {document : OntologyDocument}

/-- The number of classes alone would be enough passes. -/
theorem size_lt_defaultMaxPasses (definitions : Definitions) :
    definitions.size < defaultMaxPasses definitions := by
  have hle (properties : Nat) : definitions.size ≤ definitions.size * (3 * properties + 1) :=
    Nat.le_mul_of_pos_right definitions.size (Nat.succ_pos _)
  exact Nat.add_le_add (hle _) (Nat.le_succ 1)

theorem quiet_inheritance (h : config.maxPasses = none) :
    (inheritance config document).quiet = true := by
  have hacyclic := acyclic_breakCycles (Hierarchy.ofClasses document.classes)
  have hdescribed : ∀ edge ∈ (Hierarchy.ofClasses document.classes).breakCycles.1.edges,
      edge.2 ∈ (Definitions.ofClasses document.classes).1.keys := by
    intro edge hedge
    obtain ⟨d, hd, hiri, -⟩ := declared_of_mem_breakCycles hedge
    exact Definitions.mem_keys_ofClasses.2 ⟨d, hd, hiri⟩
  obtain ⟨height, hheight, hle⟩ := hacyclic.exists_isHeight hdescribed
  have hsize := size_lt_defaultMaxPasses (Definitions.ofClasses document.classes).1
  rw [OrderedMap.keys, List.length_map] at hle
  unfold inheritance
  rw [h]
  refine (run_quiet_of_height hheight.bound (Definitions.ofClasses_sound _).2 ?_).1
  exact Nat.le_trans (Nat.succ_le_succ hle) hsize

theorem blame_resolve (h : config.maxPasses = none) :
    AllBlameDocument (resolve config document).diagnostics := by
  intro r hr
  rcases mem_diagnostics_resolve.1 hr with hr | hr | hr | hr | hr
  · exact Definitions.blame_ofClasses _ r hr
  · exact blame_breakCycles _ r hr
  · exact .inl (kind_of_quiet (quiet_inheritance h) hr)
  · exact PropertyRanges.blame_ofProperties _ _ r hr
  · exact PropertyRanges.blame_checkDefinitions _ _ _ r hr

/-- Inheritance along edges without a cycle takes at most one pass more than a longest path has
edges, so that a resolution which is not limited never gives up. -/
theorem converges_within_height :
    (∀ (definitions : Definitions) (children : OrderedMap Iri (List Iri)) (height maxPasses : Nat),
      IsHeight (edgesOf children) height → definitions.Uncrossed → height + 1 ≤ maxPasses →
      (run definitions children maxPasses).quiet = true ∧
      EndsQuietly children definitions (run definitions children maxPasses) ∧
      (run definitions children maxPasses).passes ≤ height + 1 ∧
      ∀ r ∈ (run definitions children maxPasses).diagnostics, r.kind ≠ .softwareBug) ∧
    ∀ (config : ResolverConfig) (document : OntologyDocument), config.maxPasses = none →
      ∀ r ∈ (resolve config document).diagnostics, r.kind ≠ .softwareBug := by
  constructor
  · intro definitions children height maxPasses hheight huncrossed hmax
    obtain ⟨hquiet, hpasses⟩ := run_quiet_of_height hheight.bound huncrossed hmax
    refine ⟨hquiet, endsQuietly_of_quiet hquiet, hpasses, ?_⟩
    intro r hr hkind
    cases (kind_of_quiet hquiet hr).symm.trans hkind
  · intro config document h r hr hkind
    rcases blame_resolve h r hr with hblame | hblame
    · cases hblame.symm.trans hkind
    · cases hblame.symm.trans hkind

def chainClasses : Definitions :=
  (Definitions.ofClasses
    [boundedClass "A" Owl.minCardinality "1", { iri := "B" }, { iri := "C" }]).1

/-- Listed from below, so that every pass hands down along one edge only. -/
def chainEdges : OrderedMap Iri (List Iri) := .ofList [("B", ["C"]), ("A", ["B"])]

def chainRank (iri : Iri) : Nat := if iri = "C" then 2 else if iri = "B" then 1 else 0

theorem isHeight_chainEdges : IsHeight (edgesOf chainEdges) 2 := by
  have hrank : ∀ edge ∈ edgesOf chainEdges, chainRank edge.1 < chainRank edge.2 := by
    decide +kernel
  constructor
  · have hfirst : ("A", "B") ∈ edgesOf chainEdges := by decide +kernel
    have hsecond : ("B", "C") ∈ edgesOf chainEdges := by decide +kernel
    exact ⟨"A", "C", ((Path.nil "A").snoc hfirst).snoc hsecond⟩
  · intro n a b path
    have hle := path.length_add_le hrank
    have htop : chainRank b ≤ 2 := by
      unfold chainRank
      split
      · exact Nat.le_refl 2
      · split <;> decide
    omega

def mutualParents : OntologyDocument where
  classes :=
    [{ boundedClass "A" Owl.minCardinality "1" with parents := ["B"] },
      { boundedClass "B" Owl.maxCardinality "0" with parents := ["A"] }]

theorem converges_chain :
    IsHeight (edgesOf chainEdges) 2 ∧ (run chainClasses chainEdges 3).passes = 3 ∧
      (run chainClasses chainEdges 3).quiet = true ∧
      EndsQuietly chainEdges chainClasses (run chainClasses chainEdges 3) ∧
      (∀ r ∈ (run chainClasses chainEdges 3).diagnostics, r.kind ≠ .softwareBug) ∧
      ∀ r ∈ (resolve {} mutualParents).diagnostics, r.kind ≠ .softwareBug := by
  have hsound := Definitions.ofClasses_sound
    [boundedClass "A" Owl.minCardinality "1", { iri := "B" }, { iri := "C" }]
  have hrun := converges_within_height.1 chainClasses chainEdges 2 3 isHeight_chainEdges hsound.2
    (Nat.le_refl 3)
  exact ⟨isHeight_chainEdges, by decide +kernel, hrun.1, hrun.2.1, hrun.2.2.2,
    converges_within_height.2 {} mutualParents rfl⟩

/-- Whatever a document says of a property, the bounds that a class ends with leave a number. -/
theorem min_le_max (config : ResolverConfig) (document : OntologyDocument) («class» property : Iri)
    (constraints : ClassConstraints) (own : PropertyConstraints) (low high : UInt32)
    (hclass : (resolve config document).definitions.get? «class» = some (.restricted constraints))
    (hproperty : constraints.get? property = some own) (hlow : own.min = some low)
    (hhigh : own.max = some high) : low ≤ high := by
  have huncrossed : (resolve config document).definitions.Uncrossed :=
    run_uncrossed (Definitions.ofClasses_sound document.classes).2
  have hrestricted := Definitions.restricted?_eq_some_iff.2 hclass
  exact huncrossed «class» constraints hrestricted property own hproperty low high hlow hhigh

/-- A class with a lower bound, a parent that bounds it from above and one that asks for more than
that. -/
def boundedBetween : OntologyDocument where
  classes :=
    [boundedClass "A" Owl.maxCardinality "1", boundedClass "B" Owl.minCardinality "2",
      { boundedClass "C" Owl.minCardinality "1" with parents := ["A", "B"] }]

def oneValue : PropertyConstraints :=
  { «class» := some "C", property := some "p", min := some 1, max := some 1 }

def boundedOnce : ClassConstraints := { «class» := "C", properties := .ofList [("p", oneValue)] }

theorem min_le_max_boundedBetween :
    (resolve {} boundedBetween).definitions.get? "C" = some (.restricted boundedOnce) ∧
      boundedOnce.get? "p" = some oneValue ∧ oneValue.min = some 1 ∧ oneValue.max = some 1 ∧
      (1 : UInt32) ≤ 1 := by
  have hclass : (resolve {} boundedBetween).definitions.get? "C" =
      some (.restricted boundedOnce) := by decide +kernel
  have hproperty : boundedOnce.get? "p" = some oneValue := by decide +kernel
  exact ⟨hclass, hproperty, rfl, rfl,
    min_le_max {} boundedBetween "C" "p" boundedOnce oneValue 1 1 hclass hproperty rfl rfl⟩

end OntologyGuard.Ontology
