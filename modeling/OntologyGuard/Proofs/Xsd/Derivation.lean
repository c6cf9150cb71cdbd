import Mathlib.Logic.Relation
import OntologyGuard.Proofs.Xsd.Integer
import OntologyGuard.Proofs.Xsd.Temporal

namespace OntologyGuard.Xsd

variable {cs : List Char} {low high low' high' : Option Int}

structure Widens (low high low' high' : Option Int) : Prop where
  low : ∀ l' ∈ low', ∃ l ∈ low, l' ≤ l
  high : ∀ u' ∈ high', ∃ u ∈ high, u ≤ u'

theorem isNone_of_forall_exists {r : Int → Int → Prop} {a b : Option Int} (h : ∀ y ∈ b, ∃ x ∈ a, r x y)
    (hnone : a.isNone = true) : b.isNone = true := by
  rw [Option.isNone_iff_eq_none] at hnone ⊢
  refine Option.eq_none_iff_forall_not_mem.2 fun y hy ↦ ?_
  obtain ⟨x, hx, -⟩ := h y hy
  rw [hnone] at hx
  exact Option.not_mem_none x hx

/-- Also a text without a value stays accepted: a side that has no bound has none in the wider type. -/
theorem Widens.isIntegerBetween (hwidens : Widens low high low' high')
    (h : isIntegerBetween low high cs = true) : isIntegerBetween low' high' cs = true := by
  obtain ⟨hform, hvalue⟩ := Bool.and_eq_true_iff.1 h
  refine Bool.and_eq_true_iff.2 ⟨hform, ?_⟩
  cases hn : wideInteger? cs with
  | none =>
    rw [hn] at hvalue
    cases hnegative : isNegative cs with
    | true =>
      rw [hnegative] at hvalue
      exact isNone_of_forall_exists hwidens.low hvalue
    | false =>
      rw [hnegative] at hvalue
      exact isNone_of_forall_exists hwidens.high hvalue
  | some n =>
    simp only [hn, Bool.and_eq_true, Option.all_eq_true, decide_eq_true_eq] at hvalue ⊢
    refine ⟨fun l' hl' ↦ ?_, fun u' hu' ↦ ?_⟩
    · obtain ⟨l, hl, hle⟩ := hwidens.low l' hl'
      exact hle.trans (hvalue.1 l hl)
    · obtain ⟨u, hu, hle⟩ := hwidens.high u' hu'
      exact (hvalue.2 u hu).trans hle

theorem skipMantissa?_of_skipDigits? (h : skipDigits? cs = some []) : skipMantissa? cs = some [] := by
  unfold skipMantissa?
  split
  next => cases h
  next => rw [h, Option.map_some]

theorem isDecimal_of_isIntegerForm (h : isIntegerForm cs = true) : isDecimal cs = true :=
  decide_eq_true (skipMantissa?_of_skipDigits? (of_decide_eq_true h))

theorem isFloat_of_isDecimal (h : isDecimal cs = true) : isFloat cs = true := by
  have hmantissa := of_decide_eq_true h
  rw [isFloat, hmantissa]
  rfl

theorem isDateTime_of_zoneRequired (h : isDateTime true cs = true) : isDateTime false cs = true := by
  obtain ⟨date, after, hdate, hvalid, time, rest, htime, hvalid', zone, hzone, hvalid'', -⟩ :=
    isDateTime_iff.1 h
  exact isDateTime_iff.2 ⟨date, after, hdate, hvalid, time, rest, htime, hvalid', zone, hzone, hvalid'',
    fun hrequired ↦ absurd hrequired Bool.false_ne_true⟩

theorem isNcName_iff : isNcName cs = true ↔
    ∃ c rest, cs = c :: rest ∧ isNameStart c = true ∧ ∀ d ∈ rest, isNamePart d = true := by
  cases cs <;> simp [isNcName]

theorem isNamePart_of_isNameStart {c : Char} (h : isNameStart c = true) : isNamePart c = true := by
  simp [isNamePart, h]

theorem isName_of_isNcName (h : isNcName cs = true) : isName cs = true := by
  obtain ⟨c, rest, rfl, hc, hrest⟩ := isNcName_iff.1 h
  have hall : ∀ d ∈ rest, isNamePart d = true ∨ d = ':' := fun d hd ↦ .inl (hrest d hd)
  simpa [isName, hc] using hall

theorem isNmToken_of_isName (h : isName cs = true) : isNmToken cs = true := by
  cases cs with
  | nil => cases h
  | cons c rest =>
    simp only [isName, Bool.and_eq_true, Bool.or_eq_true, decide_eq_true_eq] at h
    simp only [isNmToken, List.isEmpty_cons, List.all_cons, Bool.not_false, Bool.true_and, Bool.and_eq_true,
      Bool.or_eq_true, decide_eq_true_eq]
    exact ⟨h.1.imp_left isNamePart_of_isNameStart, h.2⟩

theorem isQName_of_isNcName (h : isNcName cs = true) : isQName cs = true := by
  obtain ⟨c, rest, rfl, hc, hrest⟩ := isNcName_iff.1 h
  have hcolon : isNamePart ':' = false := by decide
  have hplain : ∀ d ∈ c :: rest, decide (d ≠ ':') = true := by
    intro d hd
    have hpart : isNamePart d = true := by
      rcases List.mem_cons.1 hd with rfl | hd
      · exact isNamePart_of_isNameStart hc
      · exact hrest d hd
    refine decide_eq_true fun heq ↦ ?_
    rw [heq, hcolon] at hpart
    cases hpart
  rw [isQName, List.dropWhile_eq_nil_iff.2 hplain]
  exact h

namespace Datatype

variable {narrow wide : Datatype} {s : String}

/-- The types next above a type. The floating point types stand above the decimal numbers. -/
def wider : Datatype → List Datatype
  | byte => [short]
  | short => [int]
  | int => [long]
  | long => [integer]
  | unsignedByte => [unsignedShort]
  | unsignedShort => [unsignedInt]
  | unsignedInt => [unsignedLong]
  | unsignedLong => [nonNegativeInteger]
  | positiveInteger => [nonNegativeInteger]
  | nonNegativeInteger => [integer]
  | negativeInteger => [nonPositiveInteger]
  | nonPositiveInteger => [integer]
  | integer => [decimal]
  | decimal => [float, double]
  | dateTimeStamp => [dateTime]
  | ncName => [name, qName]
  | name => [nmToken]
  | _ => []

def DerivedFrom : Datatype → Datatype → Prop := Relation.TransGen fun narrow wide ↦ wide ∈ narrow.wider

theorem acceptsTrimmed_of_mem_wider (hwider : wide ∈ narrow.wider) (h : narrow.acceptsTrimmed cs = true) :
    wide.acceptsTrimmed cs = true := by
  cases narrow <;> simp only [wider, List.mem_cons, List.not_mem_nil, or_false] at hwider
  case integer =>
    subst hwider
    exact isDecimal_of_isIntegerForm (Bool.and_eq_true_iff.1 h).1
  case decimal => rcases hwider with rfl | rfl <;> exact isFloat_of_isDecimal h
  case dateTimeStamp =>
    subst hwider
    exact isDateTime_of_zoneRequired h
  case ncName =>
    rcases hwider with rfl | rfl
    · exact isName_of_isNcName h
    · exact isQName_of_isNcName h
  case name =>
    subst hwider
    exact isNmToken_of_isName h
  all_goals
    subst hwider
    exact Widens.isIntegerBetween ⟨by decide, by decide⟩ h

/-- What a type accepts is accepted by every type from which it is derived. -/
theorem accepts_of_derivedFrom (hderived : narrow.DerivedFrom wide) (h : narrow.accepts s = true) :
    wide.accepts s = true := by
  induction hderived with
  | single hwider => exact acceptsTrimmed_of_mem_wider hwider h
  | tail _ hwider ih => exact acceptsTrimmed_of_mem_wider hwider ih

theorem accepts_foreignDigit : positiveInteger.DerivedFrom float ∧
    positiveInteger.accepts "٣" = true ∧ float.accepts "٣" = true := by
  have hnonNegative : nonNegativeInteger ∈ positiveInteger.wider := by decide
  have hinteger : integer ∈ nonNegativeInteger.wider := by decide
  have hdecimal : decimal ∈ integer.wider := by decide
  have hfloat : float ∈ decimal.wider := by decide
  have hderived : positiveInteger.DerivedFrom float :=
    .tail (.tail (.tail (.single hnonNegative) hinteger) hdecimal) hfloat
  have haccepts : positiveInteger.accepts "٣" = true := by decide +kernel
  exact ⟨hderived, haccepts, accepts_of_derivedFrom hderived haccepts⟩

end Datatype

end OntologyGuard.Xsd
