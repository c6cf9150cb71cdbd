import OntologyGuard.Text.Utf8

namespace OntologyGuard.Text

variable {bytes rest : Bytes} {byte : UInt8} {s : String} {c : Char}

theorem utf8_of_ofUtf8? (h : ofUtf8? bytes = some s) : utf8 s = bytes := by
  unfold ofUtf8? String.fromUTF8? at h
  split at h
  · obtain rfl := Option.some.inj h
    simp [utf8, String.fromUTF8]
  · cases h

theorem toNat_eq_of_head (h : (String.utf8EncodeChar c).head? = some byte) (hbyte : byte.toNat < 128) :
    c.toNat = byte.toNat := by
  change c.val.toNat = byte.toNat
  unfold String.utf8EncodeChar at h
  dsimp only at h
  split at h
  · obtain rfl := Option.some.inj h
    rw [UInt8.toNat_ofNat']
    exact (Nat.mod_eq_of_lt (by omega)).symm
  · -- the first of several octets is at least 192
    exfalso
    split at h
    · obtain rfl := Option.some.inj h
      rw [UInt8.toNat_ofNat'] at hbyte
      omega
    · split at h <;>
      · obtain rfl := Option.some.inj h
        rw [UInt8.toNat_ofNat'] at hbyte
        omega

theorem utf8_ofList_cons (c : Char) (cs : List Char) :
    utf8 (String.ofList (c :: cs)) = String.utf8EncodeChar c ++ utf8 (String.ofList cs) := by
  rw [utf8, utf8, String.toByteArray_ofList, String.toByteArray_ofList, List.utf8Encode_cons,
    List.utf8Encode_singleton, ByteArray.data_append, Array.toList_append, List.data_toByteArray]

theorem head_toList (h : utf8 s = byte :: rest) (hbyte : byte.toNat < 128) :
    ∃ c cs, s.toList = c :: cs ∧ c.toNat = byte.toNat := by
  cases hs : s.toList with
  | nil =>
    obtain rfl := String.toList_eq_nil_iff.1 hs
    cases h
  | cons c cs =>
    obtain rfl : s = String.ofList (c :: cs) := by rw [← hs, String.ofList_toList]
    refine ⟨c, cs, rfl, toNat_eq_of_head ?_ hbyte⟩
    obtain ⟨first, more, hfirst⟩ := List.exists_cons_of_ne_nil (@String.utf8EncodeChar_ne_nil c)
    rw [utf8_ofList_cons, hfirst] at h
    rw [hfirst]
    exact congrArg List.head? h

theorem head?_utf8_eq_dot : (utf8 s).head? = some 46 ↔ s.toList.head? = some '.' := by
  constructor
  · intro h
    obtain ⟨rest, hrest⟩ := List.head?_eq_some_iff.1 h
    obtain ⟨c, cs, hs, hc⟩ := head_toList hrest (by decide)
    obtain rfl : c = '.' := Char.toNat_inj.1 hc
    rw [hs, List.head?_cons]
  · intro h
    obtain ⟨cs, hcs⟩ := List.head?_eq_some_iff.1 h
    obtain rfl : s = String.ofList ('.' :: cs) := by rw [← hcs, String.ofList_toList]
    rw [utf8_ofList_cons]
    rfl

theorem firstChar?_eq_some {size : Nat} (h : firstChar? bytes = some (c, size)) :
    0 < size ∧ ∃ s, ofUtf8? (bytes.take size) = some s ∧ s.toList = [c] := by
  obtain ⟨n, hn, h⟩ := List.exists_of_findSome?_eq_some h
  split at h
  · next found hfound =>
    obtain ⟨rfl, rfl⟩ := Prod.mk.inj (Option.some.inj h)
    obtain ⟨s, hs, hlist⟩ := Option.map_eq_some_iff.1 hfound
    refine ⟨Nat.pos_of_ne_zero ?_, s, hs, hlist⟩
    rintro rfl
    simp at hn
  · cases h

/-- A dot in front is never lost, and nothing else turns into one. -/
theorem head?_lossy_eq_dot : (lossy bytes).toList.head? = some '.' ↔ bytes.head? = some 46 := by
  unfold lossy
  split
  · next s hs => rw [← head?_utf8_eq_dot, utf8_of_ofUtf8? hs]
  · cases bytes with
    | nil => simp [replacedChars]
    | cons byte rest =>
      rw [String.toList_ofList, replacedChars]
      split
      · next c size hfirst =>
        obtain ⟨hsize, s, hs, hlist⟩ := firstChar?_eq_some hfirst
        have hdot := head?_utf8_eq_dot (s := s)
        rw [utf8_of_ofUtf8? hs, hlist, List.head?_take, if_neg (Nat.ne_of_gt hsize)] at hdot
        rw [hdot]
        rfl
      · next hnone =>
        refine iff_of_false (by simp) fun hbyte ↦ ?_
        obtain rfl := Option.some.inj hbyte
        have hdot : firstChar? (46 :: rest) = some ('.', 1) := by
          have hread : ofUtf8? [46] = some "." := by decide +kernel
          simp [firstChar?, hread]
        cases hnone.symm.trans hdot

end OntologyGuard.Text
