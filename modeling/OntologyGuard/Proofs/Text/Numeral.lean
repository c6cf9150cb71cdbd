import Mathlib.Algebra.Ring.Nat
import OntologyGuard.Proofs.Text.DecimalDigit
import OntologyGuard.Text.Numeral

namespace OntologyGuard.Text

/-- The digits of a number, possibly with zeros in front. -/
structure Numeral (cs : List Char) (n : Nat) : Prop where
  ne_nil : cs ≠ []
  isDigit : ∀ c ∈ cs, c.isDigit = true
  value : digitsValue cs = n

variable {cs : List Char} {n : Nat}

theorem digitsValue_eq (cs : List Char) : digitsValue cs = Nat.ofDigitChars 10 cs 0 := by
  simp only [digitsValue, Nat.ofDigitChars_eq_foldl, Nat.mul_comm]

theorem digitsValue_cons (c : Char) (cs : List Char) :
    digitsValue (c :: cs) = (c.toNat - '0'.toNat) * 10 ^ cs.length + digitsValue cs := by
  rw [digitsValue_eq, digitsValue_eq, Nat.ofDigitChars_cons, Nat.ofDigitChars_eq_ofDigitChars_zero, Nat.mul_zero,
    Nat.zero_add, Nat.mul_comm]

theorem digitsValue_lt (h : ∀ c ∈ cs, c.isDigit = true) : digitsValue cs < 10 ^ cs.length := by
  induction cs with
  | nil => decide
  | cons c cs ih =>
    obtain ⟨hc, hcs⟩ := List.forall_mem_cons.1 h
    have hdigit : c.toNat - '0'.toNat ≤ 9 := Nat.sub_le_sub_right (toNat_of_isDigit hc).2 48
    have hvalue := Nat.mul_le_mul_right (10 ^ cs.length) hdigit
    have hrest := ih hcs
    rw [digitsValue_cons, List.length_cons, Nat.pow_succ]
    omega

theorem digitsValue_eq_zero_iff (h : ∀ c ∈ cs, c.isDigit = true) : digitsValue cs = 0 ↔ ∀ c ∈ cs, c = '0' := by
  induction cs with
  | nil => simp [digitsValue]
  | cons c cs ih =>
    obtain ⟨hc, hcs⟩ := List.forall_mem_cons.1 h
    have hzero : c.toNat - '0'.toNat = 0 ↔ c = '0' := by
      rw [Nat.sub_eq_zero_iff_le, ← Char.toNat_inj]
      exact ⟨fun hle ↦ Nat.le_antisymm hle (toNat_of_isDigit hc).1, Nat.le_of_eq⟩
    rw [digitsValue_cons, Nat.add_eq_zero_iff, Nat.mul_eq_zero, hzero, ih hcs, List.forall_mem_cons]
    exact and_congr_left' (or_iff_left (Nat.ne_of_gt (Nat.pow_pos (by decide))))

theorem numeral_repr (n : Nat) : Numeral n.repr.toList n := by
  rw [Nat.toList_repr]
  refine ⟨Nat.toDigits_ne_nil, fun c hc ↦ ?_, ?_⟩
  · exact Nat.isDigit_of_mem_toDigits (by decide) (by decide) hc
  · rw [digitsValue_eq, Nat.ofDigitChars_ten_toDigits]

theorem exists_repr_eq_cons {n : Nat} (h : n ≠ 0) :
    ∃ first rest, n.repr.toList = first :: rest ∧ first ≠ '0' := by
  rw [Nat.toList_repr]
  induction n using Nat.strongRecOn with
  | ind n ih =>
    by_cases hsmall : n < 10
    · have hdigit : ∀ d < 10, d ≠ 0 → Nat.digitChar d ≠ '0' := by decide
      exact ⟨_, [], Nat.toDigits_of_lt_base hsmall, hdigit n hsmall h⟩
    · have hlarge := Nat.le_of_not_lt hsmall
      obtain ⟨first, rest, hdigits, hfirst⟩ := ih (n / 10) (by omega) (by omega)
      rw [Nat.toDigits_of_base_le (by decide) hlarge, hdigits]
      exact ⟨first, _, rfl, hfirst⟩

theorem isBlank_of_isDigit {c : Char} (h : c.isDigit = true) : isBlank c = false :=
  isBlank_of_isDecimalDigit (isDecimalDigit_of_isDigit h)

theorem dropWhile_isBlank_of_isDigit (h : ∀ c ∈ cs, c.isDigit = true) :
    cs.dropWhile isBlank = cs := by
  cases cs with
  | nil => rfl
  | cons c rest =>
    have hblank := isBlank_of_isDigit (h c List.mem_cons_self)
    exact List.dropWhile_cons_of_neg (Bool.eq_false_iff.1 hblank)

namespace Numeral

theorem trim_eq (h : Numeral cs n) : trim cs = cs := by
  have hreverse : ∀ c ∈ cs.reverse, c.isDigit = true := fun c hc ↦
    h.isDigit c (List.mem_reverse.1 hc)
  rw [trim, dropWhile_isBlank_of_isDigit h.isDigit, dropWhile_isBlank_of_isDigit hreverse,
    List.reverse_reverse]

theorem natural?_eq (h : Numeral cs n) : natural? cs = some n := by
  have hempty : cs.isEmpty = false := List.isEmpty_eq_false_iff.2 h.ne_nil
  have hall : cs.all Char.isDigit = true := List.all_eq_true.2 h.isDigit
  simp [natural?, hempty, hall, h.value]

theorem of_natural? (h : natural? cs = some n) : Numeral cs n := by
  unfold natural? at h
  split at h
  next hdigits =>
    rw [Bool.and_eq_true, Bool.not_eq_true', List.isEmpty_eq_false_iff, List.all_eq_true] at hdigits
    exact ⟨hdigits.1, hdigits.2, Option.some.inj h⟩
  next => cases h

theorem word?_eq {w : UInt32} (h : Numeral cs w.toNat) : word? cs = some w := by
  have hsign : ∀ rest, cs ≠ '+' :: rest := by
    rintro rest rfl
    exact absurd (h.isDigit '+' List.mem_cons_self) (by decide)
  rw [word?, h.natural?_eq, Option.filter_some, if_pos (decide_eq_true w.toNat_lt_size),
    Option.map_some, UInt32.ofNat_toNat]
  exact hsign

end Numeral

end OntologyGuard.Text
