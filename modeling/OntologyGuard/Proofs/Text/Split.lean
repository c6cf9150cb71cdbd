import OntologyGuard.Text.Split

namespace OntologyGuard.Text

variable {text head tail : String} {separator : Char}

theorem startsWith_append (head tail : String) : startsWith (head ++ tail) head = true := by
  simp [startsWith, List.isPrefixOf_iff_prefix]

theorem dropLength_append (head tail : String) : dropLength (head ++ tail) head = tail := by
  simp [dropLength]

theorem eq_append_of_startsWith (h : startsWith text head = true) :
    text = head ++ dropLength text head := by
  obtain ⟨rest, hrest⟩ := List.isPrefixOf_iff_prefix.1 h
  rw [← String.toList_inj, String.toList_append, dropLength, String.toList_ofList, ← hrest]
  simp

theorem startsWith_iff : startsWith text head = true ↔ ∃ tail, text = head ++ tail :=
  ⟨fun h ↦ ⟨_, eq_append_of_startsWith h⟩, fun ⟨tail, h⟩ ↦ h ▸ startsWith_append head tail⟩

theorem not_mem_takeWhile_ne (separator : Char) (cs : List Char) :
    separator ∉ cs.takeWhile (· ≠ separator) := by
  induction cs with
  | nil => simp
  | cons c rest ih => by_cases h : c = separator <;> simp_all [Ne.symm]

theorem eq_of_dropWhile_ne {cs after : List Char} {c : Char}
    (h : cs.dropWhile (· ≠ separator) = c :: after) : c = separator := by
  induction cs with
  | nil => cases h
  | cons d rest ih => by_cases hd : d = separator <;> simp_all

theorem splitOnce?_eq_some_iff {before after : String} :
    splitOnce? separator text = some (before, after) ↔
      text.toList = before.toList ++ separator :: after.toList ∧ separator ∉ before.toList := by
  unfold splitOnce?
  dsimp only
  constructor
  · intro h
    split at h
    · cases h
    next c rest hdrop =>
      simp only [Option.some.injEq, Prod.mk.injEq] at h
      obtain ⟨rfl, rfl⟩ := h
      obtain rfl := eq_of_dropWhile_ne hdrop
      rw [String.toList_ofList, String.toList_ofList, ← hdrop, List.takeWhile_append_dropWhile]
      exact ⟨rfl, not_mem_takeWhile_ne c text.toList⟩
  · rintro ⟨htext, hnot⟩
    have hall : ∀ c ∈ before.toList, decide (c ≠ separator) = true := by
      intro c hc
      exact decide_eq_true fun e ↦ hnot (e ▸ hc)
    rw [htext, List.dropWhile_append_of_pos hall, List.takeWhile_append_of_pos hall]
    simp

end OntologyGuard.Text
