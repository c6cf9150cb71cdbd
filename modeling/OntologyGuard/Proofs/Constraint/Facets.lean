import OntologyGuard.Proofs.Constraint.Merge

namespace OntologyGuard

namespace Facet

def min? : Facet → Option UInt32
  | .cardinality .min _ n | .cardinality .exact _ n => some n
  | .cardinality .max _ _ | .range _ => none

def max? : Facet → Option UInt32
  | .cardinality .max _ n | .cardinality .exact _ n => some n
  | .cardinality .min _ _ | .range _ => none

def qualified? : Facet → Option Bool
  | .cardinality _ qualified _ => some qualified
  | .range _ => none

def range? : Facet → Option Iri
  | .cardinality _ _ _ => none
  | .range r => some r

/-- What a facet states follows from the constraints. -/
def ImpliedBy (c : PropertyConstraints) : Facet → Prop
  | .cardinality .min _ n => ∃ k, c.min = some k ∧ n ≤ k
  | .cardinality .max _ n => ∃ k, c.max = some k ∧ k ≤ n
  | .cardinality .exact _ n => (∃ k, c.min = some k ∧ n ≤ k) ∧ ∃ k, c.max = some k ∧ k ≤ n
  | .range r => c.range = some r

structure MetBy (c : PropertyConstraints) (f : Facet) : Prop where
  min : ∀ n, f.min? = some n → c.min = some n
  max : ∀ n, f.max? = some n → c.max = some n
  range : ∀ r, f.range? = some r → c.range = some r

theorem MetBy.impliedBy {c : PropertyConstraints} {f : Facet} (h : f.MetBy c) : f.ImpliedBy c := by
  cases f with
  | range r => exact h.range r rfl
  | cardinality bound qualified n =>
    cases bound with
    | min => exact ⟨n, h.min n rfl, UInt32.le_refl n⟩
    | max => exact ⟨n, h.max n rfl, UInt32.le_refl n⟩
    | exact =>
      exact ⟨⟨n, h.min n rfl, UInt32.le_refl n⟩, n, h.max n rfl, UInt32.le_refl n⟩

end Facet

namespace PropertyConstraints

variable {c d e : PropertyConstraints} {f : Facet} {n : UInt32}

theorem Extends.impliedBy (h : d.Extends c) {f : Facet} (hf : f.ImpliedBy c) : f.ImpliedBy d := by
  cases f with
  | range r => exact h.range r hf
  | cardinality bound qualified n =>
    cases bound with
    | min =>
      obtain ⟨k, hk, hle⟩ := hf
      exact ⟨k, h.min k hk, hle⟩
    | max =>
      obtain ⟨k, hk, hle⟩ := hf
      exact ⟨k, h.max k hk, hle⟩
    | exact =>
      obtain ⟨⟨k, hk, hle⟩, l, hl, hle'⟩ := hf
      exact ⟨⟨k, h.min k hk, hle⟩, l, h.max l hl, hle'⟩

structure Grows (d c : PropertyConstraints) : Prop extends d.Extends c where
  sameClass : d.class = c.class
  sameProperty : d.property = c.property
  uncrossed : c.Uncrossed → d.Uncrossed

theorem Grows.refl (c : PropertyConstraints) : c.Grows c := ⟨.refl c, rfl, rfl, id⟩

theorem Grows.trans (h : e.Grows d) (h' : d.Grows c) : e.Grows c :=
  ⟨h.toExtends.trans h'.toExtends, h.sameClass.trans h'.sameClass,
    h.sameProperty.trans h'.sameProperty, h.uncrossed ∘ h'.uncrossed⟩

theorem unset_uncrossed («class» property : Iri) : (unset «class» property).Uncrossed := by
  rintro low high ⟨⟩

/-- The minimum that is set is this one, or there is none and this one does not cross the maximum. -/
def FitsMin (c : PropertyConstraints) (n : UInt32) : Prop :=
  (∀ k, c.min = some k → k = n) ∧ (c.min = none → ∀ k, c.max = some k → n ≤ k)

/-- The maximum that is set is this one, or there is none and this one does not cross the minimum. -/
def FitsMax (c : PropertyConstraints) (n : UInt32) : Prop :=
  (∀ k, c.max = some k → k = n) ∧ (c.max = none → ∀ k, c.min = some k → k ≤ n)

/-- Nothing that is set contradicts the values of a facet; a range fits only where there is none. -/
def Fits (c : PropertyConstraints) : Facet → Prop
  | .cardinality .min _ n => c.FitsMin n
  | .cardinality .max _ n => c.FitsMax n
  | .cardinality .exact _ n => (∀ k, c.min = some k → k = n) ∧ (∀ k, c.max = some k → k = n)
  | .range _ => c.range = none

def SameQualification (c : PropertyConstraints) (f : Facet) : Prop :=
  ∀ q k, f.qualified? = some q → c.qualified = some k → k = q

def note (c : PropertyConstraints) (f : Facet) : PropertyConstraints :=
  { c with qualified := c.qualified.or f.qualified? }

def take (c : PropertyConstraints) (f : Facet) : PropertyConstraints :=
  { c with
    min := c.min.or f.min?
    max := c.max.or f.max?
    range := c.range.or f.range? }

theorem setMin_of_fits (h : c.FitsMin n) : c.setMin n = ({ c with min := some n }, []) := by
  obtain ⟨hsame, hbelow⟩ := h
  unfold setMin
  cases hmin : c.min with
  | some k =>
    obtain rfl := hsame k hmin
    have hself : { c with min := some k } = c := by rw [← hmin]
    rw [hself]
    exact if_pos rfl
  | none =>
    have hno : ¬ c.max.any (· < n) = true := by simpa [Option.any_eq_true] using hbelow hmin
    exact if_neg hno

theorem setMin_of_not_fits (h : ¬ c.FitsMin n) :
    ∃ conflict, c.setMin n = (c, [c.report conflict]) := by
  unfold setMin
  cases hmin : c.min with
  | some k =>
    have hk : k ≠ n := by
      rintro rfl
      exact h ⟨by simp [hmin], by simp [hmin]⟩
    exact ⟨_, if_neg hk⟩
  | none =>
    have hcross : c.max.any (· < n) = true := by
      by_contra hno
      exact h ⟨by simp [hmin], fun _ ↦ by simpa [Option.any_eq_true] using hno⟩
    exact ⟨_, if_pos hcross⟩

theorem setMax_of_fits (h : c.FitsMax n) : c.setMax n = ({ c with max := some n }, []) := by
  obtain ⟨hsame, habove⟩ := h
  unfold setMax
  cases hmax : c.max with
  | some k =>
    obtain rfl := hsame k hmax
    have hself : { c with max := some k } = c := by rw [← hmax]
    rw [hself]
    exact if_pos rfl
  | none =>
    have hno : ¬ c.min.any (n < ·) = true := by simpa [Option.any_eq_true] using habove hmax
    exact if_neg hno

theorem setMax_of_not_fits (h : ¬ c.FitsMax n) :
    ∃ conflict, c.setMax n = (c, [c.report conflict]) := by
  unfold setMax
  cases hmax : c.max with
  | some k =>
    have hk : k ≠ n := by
      rintro rfl
      exact h ⟨by simp [hmax], by simp [hmax]⟩
    exact ⟨_, if_neg hk⟩
  | none =>
    have hcross : c.min.any (n < ·) = true := by
      by_contra hno
      exact h ⟨by simp [hmax], fun _ ↦ by simpa [Option.any_eq_true] using hno⟩
    exact ⟨_, if_pos hcross⟩

theorem fits_exact_iff {qualified : Bool} : c.Fits (.cardinality .exact qualified n) ↔
    ¬ (c.min.any (· ≠ n) = true ∨ c.max.any (· ≠ n) = true) := by
  simp [Fits, Option.any_eq_true]

/-- Setting both bounds does all of it or none, as each bound is looked at before. -/
theorem setExact_of_fits {qualified : Bool} (h : c.Fits (.cardinality .exact qualified n)) :
    c.setExact n = ({ c with min := some n, max := some n }, []) := by
  have hmin : c.FitsMin n := ⟨h.1, fun _ k hk ↦ h.2 k hk ▸ UInt32.le_refl k⟩
  have hmax : { c with min := some n }.FitsMax n := by
    refine ⟨h.2, fun _ k hk ↦ ?_⟩
    cases hk
    exact UInt32.le_refl n
  unfold setExact
  rw [if_neg (fits_exact_iff.1 h), setMin_of_fits hmin, setMax_of_fits hmax]
  rfl

theorem or_some_eq {own : Option UInt32} (h : ∀ k, own = some k → k = n) :
    own.or (some n) = some n := by
  cases own with
  | none => rfl
  | some k => rw [h k rfl, Option.some_or]

theorem Fits.min (h : c.Fits f) {n k : UInt32} (hn : f.min? = some n) (hk : c.min = some k) :
    k = n := by
  cases f with
  | range r => cases hn
  | cardinality bound qualified m =>
    cases bound with
    | min | exact =>
      cases hn
      exact h.1 k hk
    | max => cases hn

theorem Fits.max (h : c.Fits f) {n k : UInt32} (hn : f.max? = some n) (hk : c.max = some k) :
    k = n := by
  cases f with
  | range r => cases hn
  | cardinality bound qualified m =>
    cases bound with
    | min => cases hn
    | max =>
      cases hn
      exact h.1 k hk
    | exact =>
      cases hn
      exact h.2 k hk

theorem Fits.range (h : c.Fits f) {r : Iri} (hr : f.range? = some r) : c.range = none := by
  cases f with
  | range s => exact h
  | cardinality bound qualified n => cases hr

theorem take_metBy (h : c.Fits f) : f.MetBy (c.take f) where
  min n hn := by rw [take, hn, or_some_eq fun k hk ↦ h.min hn hk]
  max n hn := by rw [take, hn, or_some_eq fun k hk ↦ h.max hn hk]
  range r hr := by rw [take, hr, h.range hr, Option.none_or]

section Bound

variable {bound : CardinalityBound} {qualified : Bool}

theorem setBound_of_fits (h : c.Fits (.cardinality bound qualified n)) :
    c.setBound n bound = (c.take (.cardinality bound qualified n), []) := by
  cases bound with
  | min => simp [setBound, setMin_of_fits h, take, Facet.min?, Facet.max?, Facet.range?, or_some_eq h.1]
  | max => simp [setBound, setMax_of_fits h, take, Facet.min?, Facet.max?, Facet.range?, or_some_eq h.1]
  | exact =>
    simp [setBound, setExact_of_fits h, take, Facet.min?, Facet.max?, Facet.range?, or_some_eq h.1,
      or_some_eq h.2]

theorem setBound_of_not_fits (h : ¬ c.Fits (.cardinality bound qualified n)) :
    ∃ conflict, c.setBound n bound = (c, [c.report conflict]) := by
  cases bound with
  | min => exact setMin_of_not_fits h
  | max => exact setMax_of_not_fits h
  | exact => exact ⟨_, if_pos (not_not.1 (mt fits_exact_iff.2 h))⟩

theorem qualify_cases (c : PropertyConstraints) (bound : CardinalityBound) (qualified : Bool)
    (n : UInt32) : ∃ mixed : List Conflict,
    (mixed = [] ↔ c.SameQualification (.cardinality bound qualified n)) ∧
      c.qualify qualified bound =
        (c.note (.cardinality bound qualified n), mixed.map c.report) := by
  unfold qualify
  cases hq : c.qualified with
  | none =>
    refine ⟨[], iff_of_true rfl fun q k _ hk ↦ ?_, by simp [note, hq, Facet.qualified?]⟩
    cases hq.symm.trans hk
  | some k =>
    have hself : c.note (.cardinality bound qualified n) = c := by
      rw [note, hq, Option.some_or, ← hq]
    rw [hself]
    by_cases hk : k = qualified
    · refine ⟨[], iff_of_true rfl ?_, if_pos hk⟩
      rintro q l ⟨⟩ hl
      exact (Option.some.inj (hl.symm.trans hq)).trans hk
    · exact ⟨[.mixedQualification qualified bound],
        iff_of_false (List.cons_ne_nil _ _) fun h ↦ hk (h qualified k rfl hq), if_neg hk⟩

end Bound

@[simp] theorem note_range (c : PropertyConstraints) (r : Iri) : c.note (.range r) = c := by
  simp [note, Facet.qualified?]

@[simp] theorem fits_note_iff (c : PropertyConstraints) (f g : Facet) :
    (c.note g).Fits f ↔ c.Fits f := by
  cases f with
  | range r => exact Iff.rfl
  | cardinality bound qualified n => cases bound <;> exact Iff.rfl

theorem setRange_of_fits {r : Iri} (h : c.Fits (.range r)) :
    c.setRange r = (c.take (.range r), []) := by
  have hr : c.range = none := h
  simp [setRange, take, hr, Facet.min?, Facet.max?, Facet.range?]

theorem setRange_of_not_fits {r : Iri} (h : ¬ c.Fits (.range r)) :
    c.setRange r = (c, [c.report .repeatedRange]) := by
  obtain ⟨s, hs⟩ := Option.ne_none_iff_exists'.1 h
  rw [setRange, hs]

@[simp] theorem report_note (c : PropertyConstraints) (f : Facet) :
    (c.note f).report = c.report := rfl

/-- All that a facet can do. Its qualification is noted, or reported if another one is; its values are
taken if they fit, or else reported. -/
theorem apply_cases (c : PropertyConstraints) (f : Facet) : ∃ mixed refused : List Conflict,
    (c.apply f).2 = (mixed ++ refused).map c.report ∧
    (mixed = [] ↔ c.SameQualification f) ∧
    (c.Fits f ∧ refused = [] ∧ (c.apply f).1 = (c.note f).take f ∨
      ¬ c.Fits f ∧ refused ≠ [] ∧ (c.apply f).1 = c.note f) := by
  cases f with
  | range r =>
    have hsame : c.SameQualification (.range r) := by rintro q k ⟨⟩
    rw [apply, note_range]
    by_cases h : c.Fits (.range r)
    · rw [setRange_of_fits h]
      exact ⟨[], [], rfl, iff_of_true rfl hsame, .inl ⟨h, rfl, rfl⟩⟩
    · rw [setRange_of_not_fits h]
      exact ⟨[], [.repeatedRange], rfl, iff_of_true rfl hsame,
        .inr ⟨h, List.cons_ne_nil _ _, rfl⟩⟩
  | cardinality bound qualified n =>
    obtain ⟨mixed, hmixed, hnote⟩ := qualify_cases c bound qualified n
    rw [apply, hnote]
    have hfits := fits_note_iff c (.cardinality bound qualified n) (.cardinality bound qualified n)
    by_cases h : c.Fits (.cardinality bound qualified n)
    · refine ⟨mixed, [], ?_, hmixed, .inl ⟨h, rfl, ?_⟩⟩
      · simp [setBound_of_fits (hfits.2 h)]
      · simp [setBound_of_fits (hfits.2 h)]
    · obtain ⟨conflict, hrefused⟩ := setBound_of_not_fits (mt hfits.1 h)
      refine ⟨mixed, [conflict], ?_, hmixed, .inr ⟨h, List.cons_ne_nil _ _, ?_⟩⟩
      · simp [hrefused]
      · simp [hrefused]

theorem apply_of_fits (h : c.Fits f) : (c.apply f).1 = (c.note f).take f := by
  obtain ⟨mixed, refused, -, -, ⟨-, -, he⟩ | ⟨hnot, -⟩⟩ := apply_cases c f
  · exact he
  · exact absurd h hnot

theorem apply_of_not_fits (h : ¬ c.Fits f) : (c.apply f).1 = c.note f := by
  obtain ⟨mixed, refused, -, -, ⟨hfits, -⟩ | ⟨-, -, he⟩⟩ := apply_cases c f
  · exact absurd hfits h
  · exact he

theorem exists_report_of_mem_apply {r : Diagnostic} (h : r ∈ (c.apply f).2) :
    ∃ conflict, c.report conflict = r := by
  obtain ⟨mixed, refused, hreports, -⟩ := apply_cases c f
  obtain ⟨conflict, -, he⟩ := List.mem_map.1 (hreports ▸ h)
  exact ⟨conflict, he⟩

theorem apply_eq_nil_iff : (c.apply f).2 = [] ↔ c.Fits f ∧ c.SameQualification f := by
  obtain ⟨mixed, refused, hreports, hmixed, ⟨hfits, hnil, -⟩ | ⟨hnot, hsome, -⟩⟩ := apply_cases c f
  · simp [hreports, hmixed, hfits, hnil]
  · simp [hreports, hnot, hsome]

theorem note_grows (c : PropertyConstraints) (f : Facet) : (c.note f).Grows c :=
  ⟨⟨fun _ h ↦ h, fun _ h ↦ h, fun _ h ↦ h⟩, rfl, rfl, id⟩

theorem FitsMin.le (h : c.FitsMin n) (hc : c.Uncrossed) {high : UInt32} (hmax : c.max = some high) :
    n ≤ high := by
  cases hmin : c.min with
  | none => exact h.2 hmin high hmax
  | some k => exact h.1 k hmin ▸ hc k high hmin hmax

theorem FitsMax.le (h : c.FitsMax n) (hc : c.Uncrossed) {low : UInt32} (hmin : c.min = some low) :
    low ≤ n := by
  cases hmax : c.max with
  | none => exact h.2 hmax low hmin
  | some k => exact h.1 k hmax ▸ hc low k hmin hmax

theorem take_uncrossed (h : c.Fits f) (hc : c.Uncrossed) : (c.take f).Uncrossed := by
  intro low high hlow hhigh
  cases f with
  | range r =>
    exact hc low high (by simpa [take, Facet.min?] using hlow) (by simpa [take, Facet.max?] using hhigh)
  | cardinality bound qualified n =>
    cases bound with
    | min =>
      obtain rfl : n = low := Option.some.inj ((or_some_eq h.1).symm.trans hlow)
      exact h.le hc (by simpa [take, Facet.max?] using hhigh)
    | max =>
      obtain rfl : n = high := Option.some.inj ((or_some_eq h.1).symm.trans hhigh)
      exact h.le hc (by simpa [take, Facet.min?] using hlow)
    | exact =>
      obtain rfl : n = low := Option.some.inj ((or_some_eq h.1).symm.trans hlow)
      obtain rfl : n = high := Option.some.inj ((or_some_eq h.2).symm.trans hhigh)
      exact UInt32.le_refl n

theorem take_grows (h : c.Fits f) : (c.take f).Grows c :=
  ⟨⟨fun m hm ↦ by simp [take, hm], fun m hm ↦ by simp [take, hm], fun r hr ↦ by simp [take, hr]⟩,
    rfl, rfl, take_uncrossed h⟩

theorem apply_grows (c : PropertyConstraints) (f : Facet) : (c.apply f).1.Grows c := by
  by_cases h : c.Fits f
  · rw [apply_of_fits h]
    exact (take_grows ((fits_note_iff c f f).2 h)).trans (note_grows c f)
  · rw [apply_of_not_fits h]
    exact note_grows c f

theorem apply_metBy (h : c.Fits f) : f.MetBy (c.apply f).1 := by
  rw [apply_of_fits h]
  exact take_metBy ((fits_note_iff c f f).2 h)

theorem apply_impliedBy {f : Facet} (h : (c.apply f).2 = []) : f.ImpliedBy (c.apply f).1 :=
  (apply_metBy (apply_eq_nil_iff.1 h).1).impliedBy

end PropertyConstraints

end OntologyGuard
