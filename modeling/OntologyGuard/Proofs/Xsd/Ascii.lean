import OntologyGuard.Proofs.Xsd.Alphabet

namespace OntologyGuard.Xsd

open Text (IsAscii isBlank isDecimalDigit strip)

variable {cs rest : List Char} {mark : Char}

theorem ascii_of_natural? {n : Nat} (h : Text.natural? cs = some n) : IsAscii cs := by
  intro c hc
  have hrange := Text.toNat_of_isDigit ((Text.Numeral.of_natural? h).isDigit c hc)
  omega

theorem ascii_of_integerValue? {z : Int} (h : integerValue? cs = some z) : IsAscii cs := by
  obtain ⟨n, hn, -⟩ := Option.map_eq_some_iff.1 h
  have hdigits := ascii_of_natural? hn
  obtain ⟨rest, rfl, hskip, -⟩ | ⟨rest, rfl, hskip, -⟩ | ⟨hskip, -⟩ := sign_cases cs <;> rw [hskip] at hdigits
  · exact .cons (by decide) hdigits
  · exact .cons (by decide) hdigits
  · exact hdigits

theorem ascii_of_isIntegerBetween {low high : Option Int} {bound : Int}
    (hbound : (if isNegative cs then low else high) = some bound) (h : isIntegerBetween low high cs = true) :
    IsAscii cs := by
  obtain ⟨-, hrange⟩ := Bool.and_eq_true_iff.1 h
  cases hwide : wideInteger? cs with
  | none =>
    rw [hwide] at hrange
    cases hnegative : isNegative cs <;> simp_all
  | some z => exact ascii_of_integerValue? (Option.filter_eq_some_iff.1 hwide).1

theorem DateFields.ascii_of_isValid {d : DateFields} (h : d.isValid = true) : IsAscii d.text := by
  unfold DateFields.isValid at h
  split at h
  next hyear hmonth hday =>
    exact (ascii_of_integerValue? hyear).append (.cons (by decide)
      ((ascii_of_natural? hmonth).append (.cons (by decide) (ascii_of_natural? hday))))
  next => cases h

theorem TimeFields.ascii_of_isValid {t : TimeFields} (h : t.isValid = true) : IsAscii t.text := by
  unfold TimeFields.isValid at h
  split at h
  next hhour hminute hsecond =>
    exact (ascii_of_natural? hhour).append (.cons (by decide)
      ((ascii_of_natural? hminute).append (.cons (by decide) (ascii_of_natural? hsecond))))
  next => cases h

def isXmlBlank (c : Char) : Bool := c = ' ' || c = '\t' || c = '\r' || c = '\n'

def residue (s : String) : List Char := strip isXmlBlank s.toList

theorem ascii_of_ascii_residue {s : String} (h : IsAscii (residue s)) : IsAscii s.toList := by
  intro c hc
  cases hblank : isXmlBlank c with
  | true =>
    simp only [isXmlBlank, Bool.or_eq_true, decide_eq_true_eq] at hblank
    obtain ((rfl | rfl) | rfl) | rfl := hblank <;> decide
  | false => exact h c (Text.mem_strip_of_mem hc hblank)

namespace Datatype

variable {type : Datatype} {s : String}

/-- The parts of a text that a type reads as numbers, and not only as digits: a number whose sign leads
towards a bound, and the fields of a date and of a time of day. -/
inductive ReadAsNumbers (cs : List Char) : Datatype → List Char → Prop where
  | bounded {type : Datatype} {low high : Option Int} {bound : Int}
      (hbounds : type.integerBounds? = some (low, high))
      (hbound : (if isNegative cs then low else high) = some bound) : ReadAsNumbers cs type cs
  | date {d : DateFields} {rest : List Char} (hdate : date? cs = some (d, rest)) : ReadAsNumbers cs date d.text
  | time {t : TimeFields} {rest : List Char} (htime : time? cs = some (t, rest)) : ReadAsNumbers cs time t.text
  | dateTime {type : Datatype} {d : DateFields} {t : TimeFields} {after rest : List Char}
      (htype : type = dateTime ∨ type = dateTimeStamp) (hdate : date? cs = some (d, 'T' :: after))
      (htime : time? after = some (t, rest)) : ReadAsNumbers cs type (d.text ++ 'T' :: t.text)
  | month {year after month rest : List Char} (hyear : year? cs = some (year, after))
      (hmonth : month? after = some (month, rest)) : ReadAsNumbers cs gYearMonth month

theorem ascii_of_isDateTime {zoneRequired : Bool} {d : DateFields} {t : TimeFields} {after : List Char}
    (h : isDateTime zoneRequired cs = true) (hdate : date? cs = some (d, 'T' :: after))
    (htime : time? after = some (t, rest)) : IsAscii (d.text ++ 'T' :: t.text) := by
  obtain ⟨d', after', hdate', hvalid, t', rest', htime', hvalid', -⟩ := isDateTime_iff.1 h
  obtain ⟨rfl, hafter⟩ := Prod.mk.inj (Option.some.inj (hdate'.symm.trans hdate))
  obtain rfl := (List.cons.inj hafter).2
  obtain ⟨rfl, -⟩ := Prod.mk.inj (Option.some.inj (htime'.symm.trans htime))
  exact (DateFields.ascii_of_isValid hvalid).append (.cons (by decide) (TimeFields.ascii_of_isValid hvalid'))

theorem ReadAsNumbers.ascii {part : List Char} (hpart : ReadAsNumbers cs type part)
    (h : type.acceptsTrimmed cs = true) : IsAscii part := by
  cases hpart with
  | bounded hbounds hbound =>
    rw [acceptsTrimmed_of_bounds hbounds] at h
    exact ascii_of_isIntegerBetween hbound h
  | date hdate =>
    obtain ⟨d, rest, hdate', hvalid, -⟩ := isCalendarDate_iff.1 h
    obtain ⟨rfl, -⟩ := Prod.mk.inj (Option.some.inj (hdate'.symm.trans hdate))
    exact DateFields.ascii_of_isValid hvalid
  | time htime =>
    obtain ⟨t, rest, htime', hvalid, -⟩ := isTimeOfDay_iff.1 h
    obtain ⟨rfl, -⟩ := Prod.mk.inj (Option.some.inj (htime'.symm.trans htime))
    exact TimeFields.ascii_of_isValid hvalid
  | dateTime htype hdate htime =>
    rcases htype with rfl | rfl
    · exact ascii_of_isDateTime h hdate htime
    · exact ascii_of_isDateTime h hdate htime
  | month hyear hmonth =>
    change isYearMonth cs = true at h
    simp only [isYearMonth, hyear, hmonth, Option.any_some, Bool.and_eq_true] at h
    obtain ⟨n, hn, -⟩ := (Option.any_eq_true _ _).1 h.1
    exact ascii_of_natural? hn

/-- The residue of a number or of a point or span of time has characters of ASCII only, unless a digit of
another script or a blank that is none of XML makes the difference; what is read as a number has no digits of
other scripts. -/
theorem ascii_residue_iff (htype : type.isQuantity = true) (h : type.accepts s = true) :
    (IsAscii (residue s) ↔
      (∀ c ∈ s.toList, isBlank c = true → c.toNat < 128) ∧
        ∀ c ∈ s.toList, isDecimalDigit c = true → c.toNat < 128) ∧
    ∀ part, ReadAsNumbers (Text.trim s.toList) type part → IsAscii part := by
  refine ⟨⟨fun hascii ↦ ⟨fun c hc _ ↦ ?_, fun c hc _ ↦ ?_⟩, fun ⟨hblanks, hdigits⟩ c hc ↦ ?_⟩, ?_⟩
  · exact ascii_of_ascii_residue hascii c hc
  · exact ascii_of_ascii_residue hascii c hc
  · have hmem := Text.mem_of_mem_strip hc
    cases hblank : isBlank c with
    | true => exact hblanks c hmem hblank
    | false =>
      have hplain := plain_of_acceptsTrimmed htype h c (Text.mem_strip_of_mem hmem hblank)
      exact hplain.elim id (hdigits c hmem)
  · exact fun part hpart ↦ hpart.ascii h

theorem not_ascii_residue_noon :
    let noon := "\u00A02024-02-29T12:30:00Z"
    dateTime.isQuantity = true ∧ long.isQuantity = true ∧ dateTime.accepts noon = true ∧
      long.accepts " -42\n" = true ∧ ¬ IsAscii (residue noon) ∧ IsAscii (residue " -42\n") := by
  intro noon
  have hnoon : dateTime.accepts noon = true := by decide +kernel
  have hlong : long.accepts " -42\n" = true := by decide +kernel
  have hnumber : IsAscii " -42\n".toList := by decide +kernel
  refine ⟨rfl, rfl, hnoon, hlong, fun hascii ↦ ?_, ?_⟩
  · have hblanks := ((ascii_residue_iff rfl hnoon).1.1 hascii).1
    exact absurd (hblanks '\u00A0' (by decide +kernel) (by decide +kernel)) (by decide)
  · exact (ascii_residue_iff rfl hlong).1.2 ⟨fun c hc _ ↦ hnumber c hc, fun c hc _ ↦ hnumber c hc⟩

/-- A digit of another script is a number, a blank that is none of XML stands before a number, and the zone of
a point in time has digits of another script. -/
theorem foreign_residue_accepted :
    (integer.accepts "٣" = true ∧ ¬ IsAscii (residue "٣")) ∧
    (long.accepts "\u00A042" = true ∧ ¬ IsAscii (residue "\u00A042")) ∧
    dateTime.accepts "2024-02-29T12:30:00+٠١:٠٠" = true ∧
      ¬ IsAscii (residue "2024-02-29T12:30:00+٠١:٠٠") := by
  decide +kernel

end Datatype

end OntologyGuard.Xsd
