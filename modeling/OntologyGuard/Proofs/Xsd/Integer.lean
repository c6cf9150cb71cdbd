import Mathlib.Algebra.Ring.Int.Defs
import Mathlib.Data.Int.Order.Basic
import Mathlib.Data.List.TakeWhile
import Mathlib.Data.Set.Basic
import OntologyGuard.Proofs.Text.Numeral
import OntologyGuard.Proofs.Text.Trim
import OntologyGuard.Xsd.Datatype

namespace OntologyGuard.Xsd

open Text (IsAscii Numeral isDecimalDigit natural?)

/-- A numeral with an optional sign, and the number that it denotes. -/
inductive SignedNumeral : List Char → Int → Prop where
  | unsigned {digits : List Char} {n : Nat} (h : Numeral digits n) : SignedNumeral digits n
  | plus {digits : List Char} {n : Nat} (h : Numeral digits n) : SignedNumeral ('+' :: digits) n
  | minus {digits : List Char} {n : Nat} (h : Numeral digits n) : SignedNumeral ('-' :: digits) (-n)

variable {cs : List Char} {low high : Option Int} {z : Int}

theorem skipDigits?_eq_some_nil_iff :
    skipDigits? cs = some [] ↔ cs ≠ [] ∧ ∀ c ∈ cs, isDecimalDigit c = true := by
  cases cs with
  | nil => simp [skipDigits?]
  | cons c rest =>
    by_cases h : isDecimalDigit c = true <;>
      simp [skipDigits?, h, List.dropWhile_eq_nil_iff]

theorem sign_cases (cs : List Char) :
    (∃ rest, cs = '+' :: rest ∧ skipSign cs = rest ∧ isNegative cs = false) ∨
    (∃ rest, cs = '-' :: rest ∧ skipSign cs = rest ∧ isNegative cs = true) ∨
      skipSign cs = cs ∧ isNegative cs = false := by
  unfold skipSign
  split
  next rest => exact .inl ⟨rest, rfl, rfl, rfl⟩
  next rest => exact .inr (.inl ⟨rest, rfl, rfl, rfl⟩)
  next hminus =>
    refine .inr (.inr ⟨rfl, decide_eq_false fun hhead ↦ ?_⟩)
    obtain ⟨rest, hrest⟩ := List.head?_eq_some_iff.1 hhead
    exact hminus rest hrest

theorem sign_of_numeral {n : Nat} (h : Numeral cs n) :
    skipSign cs = cs ∧ isNegative cs = false := by
  obtain ⟨rest, rfl, -⟩ | ⟨rest, rfl, -⟩ | hnone := sign_cases cs
  · exact absurd (h.isDigit '+' List.mem_cons_self) (by decide)
  · exact absurd (h.isDigit '-' List.mem_cons_self) (by decide)
  · exact hnone

theorem integerValue?_eq_some_iff : integerValue? cs = some z ↔ SignedNumeral cs z := by
  constructor
  · intro h
    obtain ⟨n, hn, rfl⟩ := Option.map_eq_some_iff.1 h
    have hnumeral := Numeral.of_natural? hn
    obtain ⟨rest, rfl, hskip, hnegative⟩ | ⟨rest, rfl, hskip, hnegative⟩ | ⟨hskip, hnegative⟩ :=
      sign_cases cs <;> rw [hskip] at hnumeral <;> rw [hnegative]
    · exact .plus hnumeral
    · exact .minus hnumeral
    · exact .unsigned hnumeral
  · intro h
    cases h with
    | unsigned h =>
      obtain ⟨hskip, hnegative⟩ := sign_of_numeral h
      simp [integerValue?, hskip, hnegative, h.natural?_eq]
    | plus h => simp [integerValue?, skipSign, isNegative, h.natural?_eq]
    | minus h => simp [integerValue?, skipSign, isNegative, h.natural?_eq]

namespace SignedNumeral

theorem digits (h : SignedNumeral cs z) : ∃ n, Numeral (skipSign cs) n := by
  obtain ⟨n, hn, -⟩ := Option.map_eq_some_iff.1 (integerValue?_eq_some_iff.2 h)
  exact ⟨n, Numeral.of_natural? hn⟩

theorem isIntegerForm (h : SignedNumeral cs z) : isIntegerForm cs = true := by
  obtain ⟨n, hn⟩ := h.digits
  refine decide_eq_true (skipDigits?_eq_some_nil_iff.2 ⟨hn.ne_nil, fun c hc ↦ ?_⟩)
  exact Text.isDecimalDigit_of_isDigit (hn.isDigit c hc)

theorem unique {z' : Int} (h : SignedNumeral cs z) (h' : SignedNumeral cs z') : z = z' := by
  rw [← integerValue?_eq_some_iff] at h h'
  exact Option.some.inj (h.symm.trans h')

theorem nonpos_of_isNegative (h : SignedNumeral cs z) (hnegative : isNegative cs = true) : z ≤ 0 := by
  rw [← integerValue?_eq_some_iff, integerValue?, hnegative] at h
  obtain ⟨n, -, rfl⟩ := Option.map_eq_some_iff.1 h
  exact Int.neg_nonpos_of_nonneg (Int.natCast_nonneg n)

theorem nonneg_of_not_isNegative (h : SignedNumeral cs z) (hnegative : isNegative cs = false) : 0 ≤ z := by
  rw [← integerValue?_eq_some_iff, integerValue?, hnegative] at h
  obtain ⟨n, -, rfl⟩ := Option.map_eq_some_iff.1 h
  exact Int.natCast_nonneg n

end SignedNumeral

theorem mem_of_mem_skipSign {c : Char} (h : c ∈ skipSign cs) : c ∈ cs := by
  obtain ⟨rest, rfl, -⟩ | ⟨rest, rfl, -⟩ | ⟨hskip, -⟩ := sign_cases cs
  · exact List.mem_cons_of_mem _ h
  · exact List.mem_cons_of_mem _ h
  · rwa [hskip] at h

theorem exists_signedNumeral (hascii : IsAscii cs) (h : isIntegerForm cs = true) :
    ∃ z, SignedNumeral cs z := by
  obtain ⟨hne, hdigits⟩ := skipDigits?_eq_some_nil_iff.1 (of_decide_eq_true h)
  have hnumeral : Numeral (skipSign cs) (Text.digitsValue (skipSign cs)) := by
    refine ⟨hne, fun c hc ↦ ?_, rfl⟩
    exact Text.isDigit_of_isDecimalDigit (hascii c (mem_of_mem_skipSign hc)) (hdigits c hc)
  simp only [← integerValue?_eq_some_iff, integerValue?, hnumeral.natural?_eq, Option.map_some]
  exact ⟨_, rfl⟩

/-- A number that fits in 128 bits together with its sign. -/
def FitsWide (z : Int) : Prop := leastWide ≤ z ∧ z ≤ greatestWide

instance (z : Int) : Decidable (FitsWide z) := inferInstanceAs (Decidable (_ ∧ _))

theorem wideInteger?_of_fits (h : SignedNumeral cs z) (hz : FitsWide z) : wideInteger? cs = some z := by
  rw [wideInteger?, integerValue?_eq_some_iff.2 h, Option.filter_some, if_pos]
  exact Bool.and_eq_true_iff.2 ⟨decide_eq_true hz.1, decide_eq_true hz.2⟩

theorem wideInteger?_of_not_fits (h : SignedNumeral cs z) (hz : ¬ FitsWide z) : wideInteger? cs = none := by
  rw [wideInteger?, integerValue?_eq_some_iff.2 h, Option.filter_some, if_neg]
  rw [Bool.and_eq_true, decide_eq_true_eq, decide_eq_true_eq]
  exact hz

theorem between_iff_of_below (hlow : ∀ l ∈ low, FitsWide l) (hhigh : ∀ u ∈ high, FitsWide u)
    (hz : z < leastWide) : ((∀ l ∈ low, l ≤ z) ∧ ∀ u ∈ high, z ≤ u) ↔ low = none := by
  constructor
  · intro h
    refine Option.eq_none_iff_forall_not_mem.2 fun l hl ↦ ?_
    have hle := h.1 l hl
    have hfits := (hlow l hl).1
    omega
  · rintro rfl
    refine ⟨fun l hl ↦ absurd hl (Option.not_mem_none l), fun u hu ↦ ?_⟩
    exact hz.le.trans (hhigh u hu).1

theorem between_iff_of_above (hlow : ∀ l ∈ low, FitsWide l) (hhigh : ∀ u ∈ high, FitsWide u)
    (hz : greatestWide < z) : ((∀ l ∈ low, l ≤ z) ∧ ∀ u ∈ high, z ≤ u) ↔ high = none := by
  constructor
  · intro h
    refine Option.eq_none_iff_forall_not_mem.2 fun u hu ↦ ?_
    have hle := h.2 u hu
    have hfits := (hhigh u hu).2
    omega
  · rintro rfl
    refine ⟨fun l hl ↦ ?_, fun u hu ↦ absurd hu (Option.not_mem_none u)⟩
    exact (hlow l hl).2.trans hz.le

theorem isIntegerBetween_iff (hlow : ∀ l ∈ low, FitsWide l) (hhigh : ∀ u ∈ high, FitsWide u)
    (h : SignedNumeral cs z) :
    isIntegerBetween low high cs = true ↔ (∀ l ∈ low, l ≤ z) ∧ ∀ u ∈ high, z ≤ u := by
  rw [isIntegerBetween, h.isIntegerForm, Bool.true_and]
  by_cases hz : FitsWide z
  · rw [wideInteger?_of_fits h hz]
    simp [Option.all_eq_true]
  · rw [wideInteger?_of_not_fits h hz]
    unfold FitsWide at hz
    cases hnegative : isNegative cs with
    | true =>
      have hsign := h.nonpos_of_isNegative hnegative
      have hbelow : z < leastWide := by
        unfold greatestWide at hz
        omega
      rw [between_iff_of_below hlow hhigh hbelow]
      simp
    | false =>
      have hsign := h.nonneg_of_not_isNegative hnegative
      have habove : greatestWide < z := by
        unfold leastWide at hz
        omega
      rw [between_iff_of_above hlow hhigh habove]
      simp

namespace Datatype

variable {type : Datatype} {space : Set Int}

def valueSpace? : Datatype → Option (Set Int)
  | integer => some Set.univ
  | nonNegativeInteger => some {z | 0 ≤ z}
  | positiveInteger => some {z | 1 ≤ z}
  | nonPositiveInteger => some {z | z ≤ 0}
  | negativeInteger => some {z | z ≤ -1}
  | long => some {z | -2 ^ 63 ≤ z ∧ z < 2 ^ 63}
  | int => some {z | -2 ^ 31 ≤ z ∧ z < 2 ^ 31}
  | short => some {z | -2 ^ 15 ≤ z ∧ z < 2 ^ 15}
  | byte => some {z | -2 ^ 7 ≤ z ∧ z < 2 ^ 7}
  | unsignedLong => some {z | 0 ≤ z ∧ z < 2 ^ 64}
  | unsignedInt => some {z | 0 ≤ z ∧ z < 2 ^ 32}
  | unsignedShort => some {z | 0 ≤ z ∧ z < 2 ^ 16}
  | unsignedByte => some {z | 0 ≤ z ∧ z < 2 ^ 8}
  | _ => none

theorem exists_integerBounds (h : type.valueSpace? = some space) :
    ∃ low high, type.integerBounds? = some (low, high) ∧
      (∀ l ∈ low, FitsWide l) ∧ ∀ u ∈ high, FitsWide u := by
  cases type <;> cases h <;> exact ⟨_, _, rfl, by decide, by decide⟩

theorem mem_valueSpace_iff (h : type.valueSpace? = some space)
    (hbounds : type.integerBounds? = some (low, high)) :
    z ∈ space ↔ (∀ l ∈ low, l ≤ z) ∧ ∀ u ∈ high, z ≤ u := by
  cases type <;> cases h <;> cases hbounds <;> simp <;> omega

theorem acceptsTrimmed_of_bounds (h : type.integerBounds? = some (low, high)) (cs : List Char) :
    type.acceptsTrimmed cs = isIntegerBetween low high cs := by
  cases type <;> cases h <;> rfl

/-- An integer type accepts the numerals of the numbers in its value space, whatever their length. -/
theorem accepts_iff_mem_valueSpace (hspace : type.valueSpace? = some space) {s : String}
    (hascii : IsAscii s.toList) :
    type.accepts s = true ↔ ∃ z ∈ space, SignedNumeral (Text.trim s.toList) z := by
  obtain ⟨low, high, hbounds, hlow, hhigh⟩ := exists_integerBounds hspace
  have htrimmed : IsAscii (Text.trim s.toList) := fun c hc ↦
    hascii c (Text.mem_of_mem_strip hc)
  rw [accepts, acceptsTrimmed_of_bounds hbounds]
  constructor
  · intro h
    obtain ⟨z, hz⟩ := exists_signedNumeral htrimmed (Bool.and_eq_true_iff.1 h).1
    have hbetween := (isIntegerBetween_iff hlow hhigh hz).1 h
    exact ⟨z, (mem_valueSpace_iff hspace hbounds).2 hbetween, hz⟩
  · intro ⟨z, hz, hnumeral⟩
    have hbetween := (mem_valueSpace_iff hspace hbounds).1 hz
    exact (isIntegerBetween_iff hlow hhigh hnumeral).2 hbetween

theorem accepts_beyondWords :
    let wide := " +170141183460469231731687303715884105728\n"
    let zeros := "-0000000000000000000000000000000000000000"
    IsAscii wide.toList ∧ IsAscii zeros.toList ∧
      positiveInteger.accepts wide = true ∧ ¬ unsignedLong.accepts wide = true ∧
      unsignedLong.accepts zeros = true := by
  intro wide zeros
  have hwide : IsAscii wide.toList := by decide +kernel
  have hzeros : IsAscii zeros.toList := by decide +kernel
  have hvalue : SignedNumeral (Text.trim wide.toList) (2 ^ 127) :=
    integerValue?_eq_some_iff.1 (by decide +kernel)
  have hzero : SignedNumeral (Text.trim zeros.toList) 0 :=
    integerValue?_eq_some_iff.1 (by decide +kernel)
  refine ⟨hwide, hzeros, ?_, fun h ↦ ?_, ?_⟩
  · exact (accepts_iff_mem_valueSpace rfl hwide).2 ⟨2 ^ 127, by simp, hvalue⟩
  · obtain ⟨z, hz, hnumeral⟩ := (accepts_iff_mem_valueSpace rfl hwide).1 h
    obtain rfl := hnumeral.unique hvalue
    exact absurd hz.2 (by decide)
  · exact (accepts_iff_mem_valueSpace rfl hzeros).2 ⟨0, by simp, hzero⟩

end Datatype

end OntologyGuard.Xsd
