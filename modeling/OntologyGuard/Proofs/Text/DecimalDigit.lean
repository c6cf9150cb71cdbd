import OntologyGuard.Text.Blank
import OntologyGuard.Text.DecimalDigit

namespace OntologyGuard.Text

variable {c : Char} {cs before after : List Char} {ranges others : List (Nat × Nat)}

def IsAscii (cs : List Char) : Prop := ∀ c ∈ cs, c.toNat < 128

instance (cs : List Char) : Decidable (IsAscii cs) := List.decidableBAll (fun c : Char ↦ c.toNat < 128) cs

namespace IsAscii

theorem cons (hc : c.toNat < 128) (h : IsAscii cs) : IsAscii (c :: cs) := List.forall_mem_cons.2 ⟨hc, h⟩

theorem append (h : IsAscii before) (h' : IsAscii after) : IsAscii (before ++ after) :=
  List.forall_mem_append.2 ⟨h, h'⟩

end IsAscii

def areDisjoint (ranges others : List (Nat × Nat)) : Bool :=
  ranges.all fun a ↦ others.all fun b ↦ a.2 < b.1 || b.2 < a.1

theorem not_inRanges_of_disjoint (hdisjoint : areDisjoint ranges others = true)
    (h : inRanges ranges c = true) : inRanges others c = false := by
  obtain ⟨a, ha, hca⟩ := List.any_eq_true.1 h
  refine List.any_eq_false.2 fun b hb hcb ↦ ?_
  have hapart := List.all_eq_true.1 (List.all_eq_true.1 hdisjoint a ha) b hb
  simp only [Bool.and_eq_true, Bool.or_eq_true, decide_eq_true_eq] at hca hcb hapart
  omega

theorem toNat_of_isDigit (h : c.isDigit = true) : 48 ≤ c.toNat ∧ c.toNat ≤ 57 := by
  simpa [Char.isDigit, UInt32.le_iff_toNat_le] using h

theorem isDecimalDigit_of_isDigit (h : c.isDigit = true) : isDecimalDigit c = true := by
  have hascii : c.toNat < 0x80 := by
    have hrange := toNat_of_isDigit h
    omega
  rw [isDecimalDigit, if_pos hascii, h]

theorem isDigit_of_isDecimalDigit (hascii : c.toNat < 128) (h : isDecimalDigit c = true) :
    c.isDigit = true := by
  rwa [isDecimalDigit, if_pos hascii] at h

theorem inRanges_of_isDecimalDigit (h : isDecimalDigit c = true) :
    inRanges decimalDigitRanges c = true := by
  unfold isDecimalDigit at h
  split at h
  · have hrange := toNat_of_isDigit h
    exact List.any_eq_true.2 ⟨(0x30, 0x39), List.mem_cons_self, by simpa using hrange⟩
  · exact h

theorem isBlank_of_isDecimalDigit (h : isDecimalDigit c = true) : isBlank c = false :=
  not_inRanges_of_disjoint (by decide +kernel) (inRanges_of_isDecimalDigit h)

end OntologyGuard.Text
