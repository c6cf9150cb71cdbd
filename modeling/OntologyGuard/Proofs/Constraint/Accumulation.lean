import OntologyGuard.Proofs.Constraint.Facets
import Mathlib.Data.List.Induction

/-!
Facets that come in one after the other. Each of them is taken whole or refused with a report, and what
is set never changes. None of them is reported exactly when they are consistent, and then they may come
in any order.
-/

namespace OntologyGuard

namespace Facet

variable {facets fewer later reordered : List Facet}

def AllSame {α : Type} (values : List α) : Prop := ∀ a ∈ values, ∀ b ∈ values, a = b

instance {α : Type} [DecidableEq α] (values : List α) : Decidable (AllSame values) :=
  inferInstanceAs (Decidable (∀ a ∈ values, ∀ b ∈ values, a = b))

def NoneAbove {α : Type} [LE α] (lows highs : List α) : Prop :=
  ∀ low ∈ lows, ∀ high ∈ highs, low ≤ high

instance {α : Type} [LE α] [DecidableLE α] (lows highs : List α) : Decidable (NoneAbove lows highs) :=
  inferInstanceAs (Decidable (∀ low ∈ lows, ∀ high ∈ highs, low ≤ high))

/-- The facets do not contradict each other: they are all qualified or all unqualified, at most one
states a range, and the numbers for each bound are all one, with the minimum not above the maximum. -/
structure Consistent (facets : List Facet) : Prop where
  qualified : AllSame (facets.filterMap qualified?)
  range : (facets.filterMap range?).length ≤ 1
  min : AllSame (facets.filterMap min?)
  max : AllSame (facets.filterMap max?)
  minLeMax : NoneAbove (facets.filterMap min?) (facets.filterMap max?)

instance (facets : List Facet) : Decidable (Consistent facets) :=
  decidable_of_iff
    (AllSame (facets.filterMap qualified?) ∧ (facets.filterMap range?).length ≤ 1 ∧
      AllSame (facets.filterMap min?) ∧ AllSame (facets.filterMap max?) ∧
      NoneAbove (facets.filterMap min?) (facets.filterMap max?))
    ⟨fun ⟨hq, hr, hmin, hmax, hle⟩ ↦ ⟨hq, hr, hmin, hmax, hle⟩,
      fun ⟨hq, hr, hmin, hmax, hle⟩ ↦ ⟨hq, hr, hmin, hmax, hle⟩⟩

theorem filterMap_concat {α : Type} (g : Facet → Option α) (facets : List Facet) (f : Facet) :
    (facets ++ [f]).filterMap g = facets.filterMap g ++ (g f).toList := by
  rw [List.filterMap_append]
  cases h : g f <;> simp [h]

theorem Consistent.of_subset (h : Consistent facets) (hsubset : fewer ⊆ facets)
    (hrange : (fewer.filterMap range?).length ≤ 1) : Consistent fewer := by
  have hmem {α : Type} {g : Facet → Option α} : fewer.filterMap g ⊆ facets.filterMap g :=
    List.filterMap_subset g hsubset
  exact ⟨fun a ha b hb ↦ h.qualified a (hmem ha) b (hmem hb), hrange,
    fun a ha b hb ↦ h.min a (hmem ha) b (hmem hb), fun a ha b hb ↦ h.max a (hmem ha) b (hmem hb),
    fun a ha b hb ↦ h.minLeMax a (hmem ha) b (hmem hb)⟩

theorem Consistent.of_append (h : Consistent (facets ++ later)) : Consistent facets := by
  refine h.of_subset (List.subset_append_left facets later) ?_
  have hrange := h.range
  rw [List.filterMap_append, List.length_append] at hrange
  omega

theorem Consistent.of_perm (h : Consistent facets) (hperm : reordered.Perm facets) :
    Consistent reordered :=
  h.of_subset hperm.subset ((hperm.filterMap range?).length_eq ▸ h.range)

end Facet

namespace PropertyConstraints

variable {c d e : PropertyConstraints} {f : Facet} {facets later reordered : List Facet}
  {«class» property : Iri}

/-- No field that is set changes its value, and neither does the qualification. -/
structure Keeps (d c : PropertyConstraints) : Prop extends d.Grows c where
  qualified : ∀ q, c.qualified = some q → d.qualified = some q

theorem Keeps.refl (c : PropertyConstraints) : c.Keeps c := ⟨.refl c, fun _ h ↦ h⟩

theorem Keeps.trans (h : e.Keeps d) (h' : d.Keeps c) : e.Keeps c :=
  ⟨h.toGrows.trans h'.toGrows, fun q hq ↦ h.qualified q (h'.qualified q hq)⟩

theorem apply_keeps (c : PropertyConstraints) (f : Facet) : (c.apply f).1.Keeps c := by
  refine ⟨apply_grows c f, fun q hq ↦ ?_⟩
  by_cases h : c.Fits f
  · simp [apply_of_fits h, take, note, hq]
  · simp [apply_of_not_fits h, note, hq]

theorem applyAll_concat (c : PropertyConstraints) (facets : List Facet) (f : Facet) :
    c.applyAll (facets ++ [f]) =
      (((c.applyAll facets).1.apply f).1,
        (c.applyAll facets).2 ++ ((c.applyAll facets).1.apply f).2) := by
  rw [applyAll, List.foldl_append]
  rfl

theorem applyAll_append_keeps (c : PropertyConstraints) (facets later : List Facet) :
    (c.applyAll (facets ++ later)).1.Keeps (c.applyAll facets).1 := by
  induction later using List.reverseRecOn with
  | nil =>
    rw [List.append_nil]
    exact .refl _
  | append_singleton later f ih =>
    rw [← List.append_assoc, applyAll_concat]
    exact (apply_keeps _ f).trans ih

/-- What may become of a facet. If it fits, the result has all its values; if not, neither the bounds nor
the range change, and that is reported. A range beside another one, even the same, changes nothing. -/
structure Handled (c : PropertyConstraints) (f : Facet)
    (result : PropertyConstraints × List Diagnostic) : Prop where
  wholeOrRefused : c.Fits f ∧ f.MetBy result.1 ∨
    ¬ c.Fits f ∧ result.1.min = c.min ∧ result.1.max = c.max ∧ result.1.range = c.range ∧
      ∃ r ∈ result.2, r.kind = .ontologyError
  secondRange : ∀ r s, f = .range r → c.range = some s →
    result.1 = c ∧ ∃ report, result.2 = [report] ∧ report.kind = .ontologyError
  keeps : result.1.Keeps c

theorem apply_handled (c : PropertyConstraints) (f : Facet) : c.Handled f (c.apply f) := by
  refine ⟨?_, ?_, apply_keeps c f⟩
  · by_cases h : c.Fits f
    · exact .inl ⟨h, apply_metBy h⟩
    · have hne : (c.apply f).2 ≠ [] := fun hnil ↦ h (apply_eq_nil_iff.1 hnil).1
      obtain ⟨r, hr⟩ := List.exists_mem_of_ne_nil _ hne
      obtain ⟨conflict, rfl⟩ := exists_report_of_mem_apply hr
      rw [apply_of_not_fits h]
      exact .inr ⟨h, rfl, rfl, rfl, _, hr, rfl⟩
  · rintro r s rfl hs
    have hnot : ¬ c.Fits (.range r) := fun h ↦ Option.some_ne_none s (hs.symm.trans h)
    rw [apply, setRange_of_not_fits hnot]
    exact ⟨rfl, _, rfl, rfl⟩

/-- Whatever came before, a facet is taken whole or refused with a report, and what is set once stays
under all facets that follow. -/
theorem whole_or_refused_after (start : PropertyConstraints) (facets : List Facet) :
    (∀ f, (start.applyAll facets).1.Handled f ((start.applyAll facets).1.apply f)) ∧
      ∀ later, (start.applyAll (facets ++ later)).1.Keeps (start.applyAll facets).1 :=
  ⟨apply_handled _, applyAll_append_keeps start facets⟩

/-- The fields hold what the facets state, and nothing else. -/
structure Records (c : PropertyConstraints) (facets : List Facet) : Prop where
  qualified : ∀ q, c.qualified = some q ↔ q ∈ facets.filterMap Facet.qualified?
  range : facets.filterMap Facet.range? = c.range.toList
  min : ∀ n, c.min = some n ↔ n ∈ facets.filterMap Facet.min?
  max : ∀ n, c.max = some n ↔ n ∈ facets.filterMap Facet.max?

namespace Records

theorem of_perm (h : c.Records facets) (hperm : reordered.Perm facets) : c.Records reordered := by
  refine ⟨fun q ↦ ?_, ?_, fun n ↦ ?_, fun n ↦ ?_⟩
  · rw [h.qualified, (hperm.filterMap _).mem_iff]
  · have hranges := h.range ▸ hperm.filterMap Facet.range?
    cases hr : c.range with
    | none => simpa [hr] using hranges
    | some r => simpa [hr] using hranges
  · rw [h.min, (hperm.filterMap _).mem_iff]
  · rw [h.max, (hperm.filterMap _).mem_iff]

theorem unique (h : c.Records facets) (h' : d.Records facets) (hclass : c.class = d.class)
    (hproperty : c.property = d.property) : c = d := by
  obtain ⟨«class», property, low, high, range, qualified⟩ := c
  obtain ⟨class', property', low', high', range', qualified'⟩ := d
  obtain rfl : low = low' := Option.ext fun n ↦ (h.min n).trans (h'.min n).symm
  obtain rfl : high = high' := Option.ext fun n ↦ (h.max n).trans (h'.max n).symm
  obtain rfl : qualified = qualified' :=
    Option.ext fun q ↦ (h.qualified q).trans (h'.qualified q).symm
  obtain rfl : range = range' := by
    have hlist : range.toList = range'.toList := h.range.symm.trans h'.range
    cases range <;> cases range' <;> simp_all
  obtain rfl : «class» = class' := hclass
  obtain rfl : property = property' := hproperty
  rfl

theorem consistent (h : c.Records facets) (hc : c.Uncrossed) : Facet.Consistent facets := by
  refine ⟨fun a ha b hb ↦ ?_, ?_, fun a ha b hb ↦ ?_, fun a ha b hb ↦ ?_, fun low hlow high hhigh ↦ ?_⟩
  · exact Option.some.inj (((h.qualified a).2 ha).symm.trans ((h.qualified b).2 hb))
  · rw [h.range]
    cases c.range <;> simp
  · exact Option.some.inj (((h.min a).2 ha).symm.trans ((h.min b).2 hb))
  · exact Option.some.inj (((h.max a).2 ha).symm.trans ((h.max b).2 hb))
  · exact hc low high ((h.min low).2 hlow) ((h.max high).2 hhigh)

theorem empty («class» property : Iri) : (unset «class» property).Records [] :=
  ⟨by simp [unset], rfl, by simp [unset], by simp [unset]⟩

section Field

variable {α : Type} {own stated : Option α} {values : List α} {a b : α}

theorem mem_concat (h : ∀ a, own = some a ↔ a ∈ values)
    (hagree : ∀ {a b}, stated = some a → own = some b → b = a) :
    own.or stated = some a ↔ a ∈ values ++ stated.toList := by
  rw [List.mem_append, ← h, Option.mem_toList]
  cases own with
  | none => simp
  | some b => simpa using fun ha ↦ hagree ha rfl

theorem eq_of_allSame (h : ∀ a, own = some a ↔ a ∈ values)
    (hall : Facet.AllSame (values ++ stated.toList)) (ha : stated = some a) (hb : own = some b) :
    b = a :=
  hall b (List.mem_append_left _ ((h b).1 hb)) a
    (List.mem_append_right _ (Option.mem_toList.2 ha))

end Field

theorem concat (h : c.Records facets) (hfits : c.Fits f) (hsame : c.SameQualification f) :
    ((c.note f).take f).Records (facets ++ [f]) := by
  refine ⟨fun q ↦ ?_, ?_, fun n ↦ ?_, fun n ↦ ?_⟩
  · rw [Facet.filterMap_concat]
    exact mem_concat h.qualified (hsame _ _)
  · rw [Facet.filterMap_concat, h.range]
    cases hr : f.range? with
    | none => simp [take, note, hr]
    | some r => simp [take, note, hr, hfits.range hr]
  · rw [Facet.filterMap_concat]
    exact mem_concat h.min hfits.min
  · rw [Facet.filterMap_concat]
    exact mem_concat h.max hfits.max

theorem agrees (h : c.Records facets) (hcons : Facet.Consistent (facets ++ [f])) :
    c.Fits f ∧ c.SameQualification f := by
  obtain ⟨hqualified, hrange, hmin, hmax, hle⟩ := hcons
  simp only [Facet.filterMap_concat] at hqualified hrange hmin hmax hle
  have hbelow : ∀ n, f.min? = some n → ∀ k, c.max = some k → n ≤ k := fun n hn k hk ↦
    hle n (List.mem_append_right _ (Option.mem_toList.2 hn)) k
      (List.mem_append_left _ ((h.max k).1 hk))
  have habove : ∀ n, f.max? = some n → ∀ k, c.min = some k → k ≤ n := fun n hn k hk ↦
    hle k (List.mem_append_left _ ((h.min k).1 hk)) n
      (List.mem_append_right _ (Option.mem_toList.2 hn))
  refine ⟨?_, fun q k ↦ eq_of_allSame h.qualified hqualified⟩
  cases f with
  | range r =>
    rw [h.range] at hrange
    cases hr : c.range with
    | none => exact hr
    | some s => simp [hr, Facet.range?] at hrange
  | cardinality bound qualified n =>
    cases bound with
    | min => exact ⟨fun k ↦ eq_of_allSame h.min hmin rfl, fun _ ↦ hbelow n rfl⟩
    | max => exact ⟨fun k ↦ eq_of_allSame h.max hmax rfl, fun _ ↦ habove n rfl⟩
    | exact => exact ⟨fun k ↦ eq_of_allSame h.min hmin rfl, fun k ↦ eq_of_allSame h.max hmax rfl⟩

end Records

theorem ofFacets_concat («class» property : Iri) (facets : List Facet) (f : Facet) :
    ofFacets «class» property (facets ++ [f]) =
      (((ofFacets «class» property facets).1.apply f).1,
        (ofFacets «class» property facets).2 ++ ((ofFacets «class» property facets).1.apply f).2) :=
  applyAll_concat _ facets f

theorem records_ofFacets (h : (ofFacets «class» property facets).2 = []) :
    (ofFacets «class» property facets).1.Records facets := by
  induction facets using List.reverseRecOn with
  | nil => exact .empty «class» property
  | append_singleton facets f ih =>
    rw [ofFacets_concat] at h ⊢
    obtain ⟨hbefore, hlast⟩ := List.append_eq_nil_iff.1 h
    obtain ⟨hfits, hsame⟩ := apply_eq_nil_iff.1 hlast
    rw [apply_of_fits hfits]
    exact (ih hbefore).concat hfits hsame

theorem ofFacets_eq_nil («class» property : Iri) (h : Facet.Consistent facets) :
    (ofFacets «class» property facets).2 = [] := by
  induction facets using List.reverseRecOn with
  | nil => rfl
  | append_singleton facets f ih =>
    have hbefore := ih h.of_append
    rw [ofFacets_concat]
    refine List.append_eq_nil_iff.2 ⟨hbefore, apply_eq_nil_iff.2 ?_⟩
    exact (records_ofFacets hbefore).agrees h

theorem ofFacets_keeps («class» property : Iri) (facets : List Facet) :
    (ofFacets «class» property facets).1.Keeps (unset «class» property) :=
  applyAll_append_keeps (unset «class» property) [] facets

/-- Facets come in without a report exactly when they are consistent. The result then holds what they
state, and it is the same in any order. -/
theorem ofFacets_silent_iff_consistent («class» property : Iri) (facets : List Facet) :
    ((ofFacets «class» property facets).2 = [] ↔ Facet.Consistent facets) ∧
      (Facet.Consistent facets → (ofFacets «class» property facets).1.Records facets ∧
        ∀ reordered : List Facet, reordered.Perm facets →
          ofFacets «class» property reordered = ((ofFacets «class» property facets).1, [])) := by
  have hkeeps := ofFacets_keeps «class» property facets
  refine ⟨⟨fun h ↦ ?_, ofFacets_eq_nil «class» property⟩, fun h ↦ ?_⟩
  · exact (records_ofFacets h).consistent (hkeeps.uncrossed (unset_uncrossed «class» property))
  · have hrecords := records_ofFacets (ofFacets_eq_nil «class» property h)
    refine ⟨hrecords, fun reordered hperm ↦ ?_⟩
    have hsilent := ofFacets_eq_nil «class» property (h.of_perm hperm)
    have hkeeps' := ofFacets_keeps «class» property reordered
    refine Prod.ext ((records_ofFacets hsilent).unique (hrecords.of_perm hperm) ?_ ?_) hsilent
    · exact hkeeps'.sameClass.trans hkeeps.sameClass.symm
    · exact hkeeps'.sameProperty.trans hkeeps.sameProperty.symm

def exactlyTwo : List Facet :=
  [.cardinality .min true 2, .range "R", .cardinality .exact true 2]

theorem ofFacets_exactlyTwo : Facet.Consistent exactlyTwo ∧ exactlyTwo.reverse.Perm exactlyTwo ∧
    (ofFacets "C" "p" exactlyTwo).1.Records exactlyTwo ∧
    ofFacets "C" "p" exactlyTwo.reverse = ((ofFacets "C" "p" exactlyTwo).1, []) := by
  have hconsistent : Facet.Consistent exactlyTwo := by decide
  obtain ⟨hrecords, hreordered⟩ :=
    (ofFacets_silent_iff_consistent "C" "p" exactlyTwo).2 hconsistent
  exact ⟨hconsistent, List.reverse_perm _, hrecords, hreordered _ (List.reverse_perm _)⟩

end PropertyConstraints

end OntologyGuard
