import OntologyGuard.Proofs.Inheritance.Confluence

/-!
A child with one parent. Its own constraints and what the parent requires in the end determine what it
ends with, and what is reported while they come together is reported still when they are complete.
-/

namespace OntologyGuard.PropertyConstraints

variable {sources : PropertyConstraints → Prop} {c c' d d' : PropertyConstraints}
  {own inherited inherited' : Option PropertyConstraints} {k l m : UInt32}

inductive Side where
  | lower
  | upper

namespace Side

def other : Side → Side
  | lower => upper
  | upper => lower

def bound : Side → PropertyConstraints → Option UInt32
  | lower, c => c.min
  | upper, c => c.max

/-- Whether a bound on this side leaves no number to the one on the other side. -/
def Crosses : Side → UInt32 → UInt32 → Prop
  | lower, k, l => l < k
  | upper, k, l => k < l

theorem bound_plain (side : Side) (c : PropertyConstraints) : side.bound c.plain = side.bound c := by
  cases side <;> rfl

end Side

theorem Extends.bound (h : d.Extends c) (side : Side) (hm : side.bound c = some m) :
    side.bound d = some m := by
  cases side with
  | lower => exact h.min m hm
  | upper => exact h.max m hm

theorem ComposedOf.bound (h : c.ComposedOf sources) (side : Side) (hm : side.bound c = some m) :
    ∃ d, sources d ∧ side.bound d = some m := by
  cases side with
  | lower => exact h.min m hm
  | upper => exact h.max m hm

theorem Uncrossed.not_crosses (h : c.Uncrossed) (side : Side) (hk : side.bound c = some k)
    (hl : side.other.bound c = some l) : ¬ side.Crosses k l := by
  cases side with
  | lower => exact UInt32.not_lt.2 (h k l hk hl)
  | upper => exact UInt32.not_lt.2 (h l k hl hk)

theorem refuses_iff_exists_side (hd : d.Uncrossed) : c.Refuses d ↔
    ∃ side m l, Side.bound side c = none ∧ side.bound d = some m ∧ side.other.bound c = some l ∧
      side.Crosses m l := by
  rw [refuses_iff hd]
  constructor
  · intro h
    rcases h with ⟨low, high, hnone, hlow, hhigh, hlt⟩ | ⟨low, high, hnone, hlow, hhigh, hlt⟩
    · exact ⟨.lower, low, high, hnone, hlow, hhigh, hlt⟩
    · exact ⟨.upper, high, low, hnone, hhigh, hlow, hlt⟩
  · intro h
    obtain ⟨side, m, l, hnone, hm, hl, hcrosses⟩ := h
    cases side with
    | lower => exact .inl ⟨m, l, hnone, hm, hl, hcrosses⟩
    | upper => exact .inr ⟨l, m, hnone, hl, hm, hcrosses⟩

theorem Absorbs.exists_bound (h : c.Absorbs d) (hd : d.Uncrossed) (side : Side)
    (hm : side.bound d = some m) :
    (∃ k, side.bound c = some k) ∨ ∃ l, side.other.bound c = some l ∧ side.Crosses m l := by
  rcases (absorbs_iff.1 h).2 with hrefuses | hfilled
  · obtain ⟨refused, m', l, hnone, hm', hl, hcrosses⟩ := (refuses_iff_exists_side hd).1 hrefuses
    cases side <;> cases refused
    · obtain rfl := Option.some.inj (hm.symm.trans hm')
      exact .inr ⟨l, hl, hcrosses⟩
    · exact .inl ⟨l, hl⟩
    · exact .inl ⟨l, hl⟩
    · obtain rfl := Option.some.inj (hm.symm.trans hm')
      exact .inr ⟨l, hl, hcrosses⟩
  · left
    apply Option.ne_none_iff_exists'.1
    intro hnone
    cases side with
    | lower => cases hm.symm.trans (hfilled.1 hnone)
    | upper => cases hm.symm.trans (hfilled.2 hnone)

/-- Put together from a child's own constraints and a parent's, with nothing left to take over. -/
structure Completes (own inherited : Option PropertyConstraints) (c : PropertyConstraints) :
    Prop where
  composed : c.ComposedOf fun d ↦ own = some d ∨ inherited = some d
  keeps : ∀ o, own = some o → c.Extends o
  absorbs : ∀ d, inherited = some d → c.Absorbs d
  uncrossed : c.Uncrossed

namespace Completes

theorem exists_bound (h : Completes own (some d) c) (hd : d.Uncrossed) (side : Side)
    (hm : side.bound d = some m) :
    (∃ k, side.bound c = some k) ∨
      ∃ o l, own = some o ∧ side.other.bound o = some l ∧ side.Crosses m l := by
  rcases (h.absorbs d rfl).exists_bound hd side hm with hset | ⟨l, hl, hcrosses⟩
  · exact .inl hset
  · right
    -- the bound in the way is the child's own, as the parent's two do not cross
    obtain ⟨s, hs, hsl⟩ := h.composed.bound side.other hl
    rcases hs with hs | hs
    · exact ⟨s, l, hs, hsl, hcrosses⟩
    · obtain rfl := Option.some.inj hs
      exact absurd hcrosses (hd.not_crosses side hm hsl)

theorem bound_eq_some (h : Completes own inherited c) (h' : Completes own inherited' c')
    (hsame : inherited.map (·.plain) = inherited'.map (·.plain))
    (huncrossed : ∀ d, inherited' = some d → d.Uncrossed) (side : Side)
    (hm : side.bound c = some m) : side.bound c' = some m := by
  obtain ⟨d, hd, hdm⟩ := h.composed.bound side hm
  rcases hd with hown | hd
  · exact (h'.keeps d hown).bound side hdm
  · obtain ⟨d', rfl, hplain⟩ := exists_plain_eq hsame hd
    have hdm' : side.bound d' = some m := by
      rw [← side.bound_plain, hplain, side.bound_plain, hdm]
    rcases h'.exists_bound (huncrossed d' rfl) side hdm' with ⟨k, hk⟩ | ⟨o, l, ho, hl, hcrosses⟩
    · obtain ⟨s, hs, hsk⟩ := h'.composed.bound side hk
      rcases hs with hs | hs
      · rw [hk, ← (h.keeps s hs).bound side hsk, hm]
      · obtain rfl := Option.some.inj hs
        rw [hk, ← hsk, hdm']
    · have hcrossed := h.uncrossed.not_crosses side hm ((h.keeps o ho).bound side.other hl)
      exact absurd hcrosses hcrossed

theorem range_eq_some (h : Completes own inherited c) (h' : Completes own inherited' c')
    (hsame : inherited.map (·.plain) = inherited'.map (·.plain)) {r : Iri} (hr : c.range = some r) :
    c'.range = some r := by
  obtain ⟨d, hd, hdr⟩ := h.composed.range r hr
  rcases hd with hown | hd
  · exact (h'.keeps d hown).range r hdr
  · obtain ⟨d', rfl, hplain⟩ := exists_plain_eq hsame hd
    have hdr' : d'.range = some r := (plain_eq_iff.1 hplain).2.2.2.2.trans hdr
    cases hrange : c'.range with
    | none => cases hdr'.symm.trans ((absorbs_iff.1 (h'.absorbs d' rfl)).1 hrange)
    | some r' =>
      obtain ⟨s, hs, hsr⟩ := h'.composed.range r' hrange
      rcases hs with hs | hs
      · rw [← (h.keeps s hs).range r' hsr, hr]
      · obtain rfl := Option.some.inj hs
        rw [← hsr, hdr']

theorem fields_eq (h : Completes own inherited c) (h' : Completes own inherited' c')
    (hsame : inherited.map (·.plain) = inherited'.map (·.plain))
    (huncrossed : ∀ d, inherited = some d → d.Uncrossed)
    (huncrossed' : ∀ d, inherited' = some d → d.Uncrossed) :
    c.min = c'.min ∧ c.max = c'.max ∧ c.range = c'.range := by
  have hbound (side : Side) : side.bound c = side.bound c' := by
    ext m
    exact ⟨h.bound_eq_some h' hsame huncrossed' side,
      h'.bound_eq_some h hsame.symm huncrossed side⟩
  refine ⟨hbound .lower, hbound .upper, ?_⟩
  ext r
  exact ⟨h.range_eq_some h' hsame, h'.range_eq_some h hsame.symm⟩

end Completes

theorem mem_conflicts {conflict : Conflict} : conflict ∈ c.conflicts d ↔
    (∃ k m, c.min = some k ∧ d.min = some m ∧ k < m ∧ conflict = .tighterMin k m d.originOf) ∨
    (∃ k m, c.max = some k ∧ d.max = some m ∧ m < k ∧ conflict = .tighterMax k m d.originOf) ∨
    ∃ r s, c.range = some r ∧ d.range = some s ∧ s ≠ r ∧ conflict = .otherRange r s d.originOf := by
  unfold conflicts
  rw [List.mem_append, List.mem_append, or_assoc]
  refine or_congr ?_ (or_congr ?_ ?_)
  · cases c.min <;> cases d.min <;> simp
  · cases c.max <;> cases d.max <;> simp
  · cases c.range <;> cases d.range <;> simp

theorem conflicts_mono (hc : c'.Extends c) (hd : d'.Extends d) (horigin : d'.class = d.class)
    {conflict : Conflict} (h : conflict ∈ c.conflicts d) : conflict ∈ c'.conflicts d' := by
  have horigin' : d'.originOf = d.originOf := by rw [originOf, originOf, horigin]
  rw [mem_conflicts] at h ⊢
  rw [horigin']
  rcases h with ⟨k, m, hk, hm, hlt, he⟩ | ⟨k, m, hk, hm, hlt, he⟩ | ⟨r, s, hr, hs, hne, he⟩
  · exact .inl ⟨k, m, hc.min k hk, hd.min m hm, hlt, he⟩
  · exact .inr (.inl ⟨k, m, hc.max k hk, hd.max m hm, hlt, he⟩)
  · exact .inr (.inr ⟨r, s, hc.range r hr, hd.range s hs, hne, he⟩)

theorem mergeParent_plain (c d : PropertyConstraints) :
    (c.plain.mergeParent d.plain).2 = (c.mergeParent d).2 := rfl

theorem Completes.refuses (h : Completes own (some d') c') (hd' : d'.Uncrossed)
    (hown : ∀ o, own = some o → c.Extends o) (hc : c'.Extends c) (hd : d'.Extends d)
    (huncrossed : d.Uncrossed) (hrefuses : c.Refuses d) : c'.Refuses d' := by
  obtain ⟨side, m, l, hnone, hm, hl, hcrosses⟩ := (refuses_iff_exists_side huncrossed).1 hrefuses
  have hm' := hd.bound side hm
  have hl' := hc.bound side.other hl
  refine (refuses_iff_exists_side hd').2 ⟨side, m, l, ?_, hm', hl', hcrosses⟩
  -- had the completion taken the bound after all, its own bounds would cross
  apply Option.eq_none_iff_forall_ne_some.2
  intro k hk
  obtain ⟨s, hs, hsk⟩ := h.composed.bound side hk
  rcases hs with hs | hs
  · cases hnone.symm.trans ((hown s hs).bound side hsk)
  · obtain rfl := Option.some.inj hs
    obtain rfl := Option.some.inj (hsk.symm.trans hm')
    exact h.uncrossed.not_crosses side hk hl' hcrosses

theorem Completes.mem_mergeParent (h : Completes own (some d') c') (hd' : d'.Uncrossed)
    (hown : ∀ o, own = some o → c.Extends o) (hc : c'.Extends c) (hd : d'.Extends d)
    (huncrossed : d.Uncrossed) (hclass : c'.class = c.class) (hproperty : c'.property = c.property)
    (horigin : d'.class = d.class) {r : Diagnostic} (hr : r ∈ (c.mergeParent d).2) :
    r ∈ (c'.mergeParent d').2 := by
  have hreport (conflict : Conflict) : c'.report conflict = c.report conflict := by
    rw [report, report, hclass, hproperty]
  have horigin' : d'.originOf = d.originOf := by rw [originOf, originOf, horigin]
  rw [PropertyConstraints.mem_mergeParent] at hr ⊢
  rcases hr with ⟨conflict, hconflict, rfl⟩ | ⟨hrefuses, rfl⟩
  · exact .inl ⟨conflict, conflicts_mono hc hd horigin hconflict, (hreport conflict).symm⟩
  · right
    rw [hreport, horigin']
    exact ⟨h.refuses hd' hown hc hd huncrossed hrefuses, rfl⟩

end OntologyGuard.PropertyConstraints
