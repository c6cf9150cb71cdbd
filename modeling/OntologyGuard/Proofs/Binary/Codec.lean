import Mathlib.Algebra.Ring.Nat
import OntologyGuard.Binary.Codec
import OntologyGuard.Proofs.Data.Outcome
import OntologyGuard.Proofs.Data.Rebuilding

namespace OntologyGuard.Binary

/-- A length below this fits in eight octets. -/
def sizeLimit : Nat := 256 ^ 8

@[simp] theorem length_littleEndian (width n : Nat) : (littleEndian width n).length = width := by
  induction width generalizing n with
  | zero => rfl
  | succ width ih => rw [littleEndian, List.length_cons, ih]

theorem ofLittleEndian_littleEndian {width n : Nat} (h : n < 256 ^ width) :
    ofLittleEndian (littleEndian width n) = n := by
  induction width generalizing n with
  | zero =>
    rw [Nat.pow_zero, Nat.lt_one_iff] at h
    exact h.symm
  | succ width ih =>
    have hrest : n / 256 < 256 ^ width := by
      rw [Nat.pow_succ] at h
      exact Nat.div_lt_of_lt_mul (Nat.mul_comm _ _ ▸ h)
    have hlow : (UInt8.ofNat (n % 256)).toNat = n % 256 :=
      UInt8.toNat_ofNat_of_lt' (Nat.mod_lt _ (by decide))
    have hsum : (UInt8.ofNat (n % 256)).toNat + 256 * ofLittleEndian (littleEndian width (n / 256)) =
        n := by
      rw [hlow, ih hrest]
      exact Nat.mod_add_div n 256
    exact hsum

theorem split_append (front rest : Bytes) : split front.length (front ++ rest) = .ok (front, rest) := by
  simp [split]

theorem split_eq_error {n : Nat} {bytes : Bytes} (h : bytes.length < n) :
    split n bytes = .error .endOfInput :=
  if_neg (Nat.not_le.2 h)

namespace Codec

variable {α β : Type}

/-- Something is written of each value, and reading takes it off the front of what follows it. -/
structure Lawful (codec : Codec α) : Prop where
  length_pos : ∀ a, 0 < (codec.write a).length
  read_write : ∀ a rest, (codec.write a).length < sizeLimit →
    codec.read (codec.write a ++ rest) = .ok (a, rest)

theorem natural_read_write {width n : Nat} (h : n < 256 ^ width) (rest : Bytes) :
    (natural width).read ((natural width).write n ++ rest) = .ok (n, rest) := by
  have hsplit := split_append (littleEndian width n) rest
  rw [length_littleEndian] at hsplit
  have hvalue := ofLittleEndian_littleEndian h
  simp only [natural, hsplit, ok_bind, hvalue]
  rfl

theorem length_natural_write (width n : Nat) : ((natural width).write n).length = width :=
  length_littleEndian width n

namespace Lawful

variable {codec : Codec α} {first : Codec α} {second : Codec β}

theorem map {view : β → α} {make : α → β} (h : codec.Lawful) (hmake : ∀ b, make (view b) = b) :
    (codec.map view make).Lawful where
  length_pos b := h.length_pos (view b)
  read_write b rest hsize := by
    have hread := h.read_write (view b) rest hsize
    simp only [Codec.map, hread, Except.map, hmake]

theorem word : word.Lawful where
  length_pos n := by
    have hlength : (Codec.word.write n).length = 4 := length_natural_write 4 n.toNat
    omega
  read_write n rest _ := by
    have hread := natural_read_write (show n.toNat < 256 ^ 4 from n.toNat_lt) rest
    simp only [Codec.word, Codec.map, hread, Except.map, UInt32.ofNat_toNat]

theorem text : text.Lawful where
  length_pos s := by
    simp only [Codec.text, List.length_append, length_natural_write]
    omega
  read_write s rest hsize := by
    simp only [Codec.text, List.length_append, length_natural_write] at hsize
    have hlength : (Text.utf8 s).length < 256 ^ 8 := by
      unfold sizeLimit at hsize
      omega
    simp only [Codec.text, List.append_assoc, natural_read_write hlength, ok_bind, split_append,
      Text.ofUtf8?_utf8]
    rfl

theorem flag (fault : Fault) : (flag fault).Lawful where
  length_pos _ := Nat.zero_lt_one
  read_write b rest _ := by cases b <;> rfl

theorem option (h : codec.Lawful) : codec.option.Lawful where
  length_pos a := by cases a <;> simp [Codec.option, Codec.flag]
  read_write a rest hsize := by
    cases a with
    | none => rfl
    | some a =>
      simp only [Codec.option, List.length_append] at hsize
      have hread := h.read_write a rest (by omega)
      have hflag := (flag .invalidOption).read_write true (codec.write a ++ rest) (by decide)
      simp only [Codec.option, List.append_assoc, hflag, ok_bind, hread]
      rfl

theorem pair (hfirst : first.Lawful) (hsecond : second.Lawful) : (first.pair second).Lawful where
  length_pos p := by
    have hpos := hfirst.length_pos p.1
    simp only [Codec.pair, List.length_append]
    omega
  read_write p rest hsize := by
    simp only [Codec.pair, List.length_append] at hsize
    have hread := hfirst.read_write p.1 (second.write p.2 ++ rest) (by omega)
    have hread' := hsecond.read_write p.2 rest (by omega)
    simp only [Codec.pair, List.append_assoc, hread, hread', ok_bind]
    rfl

/-- Each item has an octet of its own, so there are no more items than octets. -/
theorem length_le_flatMap (h : codec.Lawful) (items : List α) :
    items.length ≤ (items.flatMap codec.write).length := by
  induction items with
  | nil => exact Nat.le_refl _
  | cons a rest ih =>
    have hpos := h.length_pos a
    simp only [List.flatMap_cons, List.length_append, List.length_cons]
    omega

theorem readMany_flatMap (h : codec.Lawful) (items : List α) (rest : Bytes)
    (hsize : (items.flatMap codec.write).length < sizeLimit) :
    readMany codec.read items.length (items.flatMap codec.write ++ rest) = .ok (items, rest) := by
  induction items with
  | nil => rfl
  | cons a more ih =>
    simp only [List.flatMap_cons, List.length_append] at hsize
    have hread := h.read_write a (more.flatMap codec.write ++ rest) (by omega)
    have hmore := ih (by omega)
    simp only [List.length_cons, List.flatMap_cons, List.append_assoc, readMany, hread, ok_bind,
      hmore]
    rfl

theorem list (h : codec.Lawful) : codec.list.Lawful where
  length_pos items := by
    simp only [Codec.list, List.length_append, length_natural_write]
    omega
  read_write items rest hsize := by
    simp only [Codec.list, List.length_append, length_natural_write] at hsize
    have hle := h.length_le_flatMap items
    have hcount : items.length < 256 ^ 8 := by
      unfold sizeLimit at hsize
      omega
    simp only [Codec.list, List.append_assoc, natural_read_write hcount, ok_bind]
    exact h.readMany_flatMap items rest (by omega)

theorem orderedMap [DecidableEq α] {key : Codec α} {value : Codec β} (hkey : key.Lawful)
    (hvalue : value.Lawful) : (orderedMap key value).Lawful :=
  (hkey.pair hvalue).list.map OrderedMap.ofList_entries

theorem choice {number : α → Nat} {content : α → Bytes}
    {cases : List (Bytes → Except Fault (α × Bytes))} (hcases : cases.length ≤ 256 ^ 4)
    (h : ∀ a, ∃ read, cases[number a]? = some read ∧
      ∀ rest, (content a).length < sizeLimit → read (content a ++ rest) = .ok (a, rest)) :
    (choice number content cases).Lawful where
  length_pos a := by
    simp only [Codec.choice, List.length_append, length_natural_write]
    omega
  read_write a rest hsize := by
    simp only [Codec.choice, List.length_append, length_natural_write] at hsize
    obtain ⟨read, hcase, hread⟩ := h a
    have hnumber : number a < 256 ^ 4 := by
      obtain ⟨hlt, -⟩ := List.getElem?_eq_some_iff.1 hcase
      omega
    simp only [Codec.choice, List.append_assoc, natural_read_write hnumber, ok_bind, hcase]
    exact hread rest (by omega)

theorem reading (h : codec.Lawful) (wrap : α → β) (a : α) (rest : Bytes)
    (hsize : (codec.write a).length < sizeLimit) :
    codec.reading wrap (codec.write a ++ rest) = .ok (wrap a, rest) := by
  simp only [Codec.reading, h.read_write a rest hsize, Except.map]

end Lawful

end Codec

end OntologyGuard.Binary
