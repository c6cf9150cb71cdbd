import Mathlib.Tactic.IntervalCases
import OntologyGuard.Calendar

namespace OntologyGuard.Calendar

variable {d c q k r m y : Int}

theorem exists_part {width : Int} (hwidth : 0 < width) (h : 0 ≤ d ∧ d ≤ 4 * width) :
    ∃ n r : Int, (0 ≤ n ∧ n ≤ 3) ∧ (0 ≤ r ∧ r ≤ width) ∧ (r < width ∨ n = 3) ∧
      d = width * n + r := by
  by_cases hd : d < width * 3
  · have hlt := Int.ediv_lt_of_lt_mul hwidth (Int.mul_comm width 3 ▸ hd)
    have hmod := Int.emod_lt_of_pos d hwidth
    have hsum := (Int.mul_ediv_add_emod d width).symm
    exact ⟨d / width, d % width, ⟨Int.ediv_nonneg h.1 (Int.le_of_lt hwidth), by omega⟩,
      ⟨Int.emod_nonneg d (Int.ne_of_gt hwidth), Int.le_of_lt hmod⟩, .inl hmod, hsum⟩
  · exact ⟨3, d - width * 3, by decide, by omega, .inr rfl, by omega⟩

/-- The centuries of an era, their spans of four years, the years of a span and their days. -/
structure Parts (d c q k r : Int) : Prop where
  century : 0 ≤ c ∧ c ≤ 3
  span : 0 ≤ q ∧ q ≤ 24
  year : 0 ≤ k ∧ k ≤ 3
  day : 0 ≤ r ∧ r ≤ 365
  century_end : 1461 * q + 365 * k + r < 36524 ∨ c = 3
  span_end : r < 365 ∨ k = 3
  sum : d = 36524 * c + 1461 * q + 365 * k + r

theorem exists_parts (h : 0 ≤ d ∧ d < 146097) : ∃ c q k r, Parts d c q k r := by
  have hcentury : (0 : Int) < 36524 := by decide
  have hyear : (0 : Int) < 365 := by decide
  obtain ⟨c, e, hc, he, hc', hd⟩ := exists_part hcentury (d := d) (by omega)
  have hspan : 0 ≤ e % 1461 ∧ e % 1461 ≤ 4 * 365 := by omega
  have hq : 0 ≤ e / 1461 ∧ e / 1461 ≤ 24 := by omega
  obtain ⟨k, r, hk, hr, hk', hf⟩ := exists_part hyear hspan
  have hsum : e = 1461 * (e / 1461) + (365 * k + r) := hf ▸ (Int.mul_ediv_add_emod e 1461).symm
  exact ⟨c, e / 1461, k, r, hc, hq, hk, hr, by omega, hk', by omega⟩

theorem Parts.yearOfEra (h : Parts d c q k r) :
    (d - d / 1460 + d / 36524 - d / 146096) / 365 = 100 * c + 4 * q + k := by
  obtain ⟨hc, hq, hk, hr, hcentury, hspan, hd⟩ := h
  have hspans : d / 1460 = 25 * c + q + (24 * c + q + 365 * k + r) / 1460 := by
    have hsum : d = 1460 * (25 * c + q) + (24 * c + q + 365 * k + r) := by omega
    rw [hsum, Int.mul_add_ediv_left _ _ (by decide)]
  -- a span counts as over up to a whole year too soon, but not before its last year has begun
  have hlong : (24 * c + q + 365 * k + r) / 1460 = 0 ∧ r < 365 ∨
      (24 * c + q + 365 * k + r) / 1460 = 1 ∧ 0 < r := by
    omega
  have hcenturies : d / 36524 = c + (1461 * q + 365 * k + r) / 36524 := by
    have hsum : d = 36524 * c + (1461 * q + 365 * k + r) := by omega
    rw [hsum, Int.mul_add_ediv_left _ _ (by decide)]
  have hera : d / 146096 = (1461 * q + 365 * k + r) / 36524 := by omega
  omega

/-- A year that begins in March has this day when so many days of it are over. -/
structure HasDay (y r : Int) : Prop where
  bounds : 0 ≤ r ∧ r ≤ 365
  leap : r = 365 → isLeapYear (y + 1) = true

theorem Parts.hasDay (h : Parts d c q k r) : HasDay (100 * c + 4 * q + k) r := by
  obtain ⟨-, hq, -, hr, hcentury, hspan, -⟩ := h
  refine ⟨hr, fun hlast ↦ ?_⟩
  have hfour : (100 * c + 4 * q + k + 1) % 4 = 0 := by omega
  have hrule : (100 * c + 4 * q + k + 1) % 100 ≠ 0 ∨ (100 * c + 4 * q + k + 1) % 400 = 0 := by omega
  simpa [isLeapYear, hfour] using hrule

theorem exists_yearOfEra (h : 0 ≤ d ∧ d < 146097) :
    ∃ y r : Int, (0 ≤ y ∧ y < 400) ∧ HasDay y r ∧
      (d - d / 1460 + d / 36524 - d / 146096) / 365 = y ∧
      d = 365 * y + y / 4 - y / 100 + r := by
  obtain ⟨c, q, k, r, hparts⟩ := exists_parts h
  have hyear := hparts.yearOfEra
  have hday := hparts.hasDay
  obtain ⟨hc, hq, hk, -, -, -, hd⟩ := hparts
  have hspans : (100 * c + 4 * q + k) / 4 = 25 * c + q := by omega
  have hcenturies : (100 * c + 4 * q + k) / 100 = c := by omega
  refine ⟨100 * c + 4 * q + k, r, by omega, hday, hyear, ?_⟩
  rw [hspans, hcenturies, hd]
  omega

/-- A date by its era, the year of it that begins in March, and the days of that year before it. -/
def ofMarchDay (era y r : Int) : Date :=
  let marchMonth := (5 * r + 2) / 153
  let month := ((marchMonth + 2) % 12 + 1).toNat
  { year := y + era * 400 + if month ≤ 2 then 1 else 0
    month
    day := (r - (153 * marchMonth + 2) / 5 + 1).toNat }

theorem exists_ofMarchDay (n : Int) :
    ∃ era y r, (0 ≤ y ∧ y < 400) ∧ HasDay y r ∧ ofDayNumber n = ofMarchDay era y r ∧
      n = era * 146097 + (365 * y + y / 4 - y / 100 + r) - 719468 := by
  have hera : 0 ≤ (n + 719468) % 146097 ∧ (n + 719468) % 146097 < 146097 :=
    ⟨Int.emod_nonneg _ (by decide), Int.emod_lt_of_pos _ (by decide)⟩
  have hsum := Int.mul_ediv_add_emod (n + 719468) 146097
  obtain ⟨y, r, hy, hr, hyear, hd⟩ := exists_yearOfEra hera
  have hrest : (n + 719468) % 146097 - (365 * y + y / 4 - y / 100) = r := by
    rw [hd]
    exact add_sub_cancel_left _ _
  refine ⟨(n + 719468) / 146097, y, r, hy, hr, ?_, ?_⟩
  · simp only [ofDayNumber, ofMarchDay, hyear, hrest]
  · rw [← hd]
    omega

theorem marchMonth_bounds (hr : 0 ≤ r ∧ r ≤ 365) :
    0 ≤ (5 * r + 2) / 153 ∧ (5 * r + 2) / 153 ≤ 11 ∧ (153 * ((5 * r + 2) / 153) + 2) / 5 ≤ r := by
  refine ⟨?_, ?_, ?_⟩ <;> omega

theorem dayNumber_ofMarchDay (era : Int) (hy : 0 ≤ y ∧ y < 400) (hr : HasDay y r) :
    dayNumber (ofMarchDay era y r) = era * 146097 + (365 * y + y / 4 - y / 100 + r) - 719468 := by
  obtain ⟨hlow, hhigh, hday⟩ := marchMonth_bounds hr.bounds
  unfold dayNumber ofMarchDay daysBeforeMonth
  generalize (5 * r + 2) / 153 = m at hlow hhigh hday
  have hmonth : ((((m + 2) % 12 + 1).toNat : Int) + 9) % 12 = m := by omega
  dsimp only
  rw [hmonth]
  split <;> omega

theorem isLeapYear_add_era (year era : Int) : isLeapYear (year + era * 400) = isLeapYear year := by
  have hfour : (year + era * 400) % 4 = year % 4 := by omega
  have hhundred : (year + era * 400) % 100 = year % 100 := by omega
  have hera : (year + era * 400) % 400 = year % 400 := by omega
  simp only [isLeapYear, hfour, hhundred, hera]

theorem february_day_le (hr : HasDay y r) (era : Int) :
    (r - 337 + 1).toNat ≤ daysInMonth (y + era * 400 + 1) 2 := by
  obtain ⟨hbounds, hleap⟩ := hr
  have hyear : isLeapYear (y + era * 400 + 1) = isLeapYear (y + 1) := by
    rw [Int.add_right_comm, isLeapYear_add_era]
  rw [daysInMonth, if_pos rfl, hyear]
  cases hy : isLeapYear (y + 1)
  · have hlast : r ≠ 365 := fun hlast ↦ Bool.false_ne_true (hy.symm.trans (hleap hlast))
    simp only [Bool.false_eq_true, if_false]
    omega
  · simp only [if_true]
    omega

theorem day_le_daysInMonth (hr : HasDay y r) (era : Int) : (ofMarchDay era y r).day ≤
    daysInMonth (ofMarchDay era y r).year (ofMarchDay era y r).month := by
  have hbounds := hr.bounds
  obtain ⟨hlow, hhigh, -⟩ := marchMonth_bounds hbounds
  have hfebruary := february_day_le hr era
  unfold ofMarchDay
  generalize hm : (5 * r + 2) / 153 = m at hlow hhigh
  interval_cases m
  case «11» => exact hfebruary
  all_goals
    simp [daysInMonth]
    omega

theorem isDate_ofDayNumber {n : Int} (h : isSupportedYear (ofDayNumber n).year = true) :
    isDate (ofDayNumber n).year (ofDayNumber n).month (ofDayNumber n).day = true := by
  obtain ⟨era, y, r, -, hr, hdate, -⟩ := exists_ofMarchDay n
  have hroom := day_le_daysInMonth hr era
  rw [← hdate] at hroom
  have hmonth : 1 ≤ (ofDayNumber n).month ∧ (ofDayNumber n).month ≤ 12 := by
    rw [hdate, ofMarchDay]
    dsimp only
    omega
  have hday : 1 ≤ (ofDayNumber n).day := by
    have hbounds := (marchMonth_bounds hr.bounds).2.2
    rw [hdate, ofMarchDay]
    dsimp only
    omega
  simp [isDate, h, hmonth, hday, hroom]

theorem daysInMonth_le (year : Int) (month : Nat) : daysInMonth year month ≤ 31 := by
  unfold daysInMonth
  repeat' split
  all_goals decide

theorem bounds_of_isDate {year : Int} {month day : Nat} (h : isDate year month day = true) :
    (1 ≤ month ∧ month ≤ 12) ∧ 1 ≤ day ∧ day ≤ 31 := by
  have hroom := daysInMonth_le year month
  simp only [isDate, Bool.and_eq_true, decide_eq_true_eq] at h
  omega

theorem dayNumber_ofDayNumber (n : Int) : dayNumber (ofDayNumber n) = n := by
  obtain ⟨era, y, r, hy, hr, hdate, hn⟩ := exists_ofMarchDay n
  rw [hdate, dayNumber_ofMarchDay era hy hr, hn]

end OntologyGuard.Calendar
