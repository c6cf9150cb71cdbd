import Mathlib.Data.List.Basic
import OntologyGuard.Data.DistinctList

namespace OntologyGuard.DistinctList

universe u

variable {α : Type u} [DecidableEq α] {s : DistinctList α} {a : α}

omit [DecidableEq α] in
theorem toList_eq_singleton_iff : s.toList = [a] ↔ ∀ b, b ∈ s ↔ b = a := by
  have hnodup := s.nodup
  constructor
  · intro h b
    rw [mem_def, h, List.mem_singleton]
  · intro h
    cases hs : s.toList with
    | nil =>
      have ha := (h a).2 rfl
      rw [mem_def, hs] at ha
      cases ha
    | cons b rest =>
      have hall : ∀ c ∈ b :: rest, c = a := by
        intro c hc
        rw [← hs] at hc
        exact (h c).1 hc
      rw [hs, List.nodup_cons] at hnodup
      obtain rfl := hall b List.mem_cons_self
      rw [List.eq_nil_iff_forall_not_mem.2 fun c hc ↦ hnodup.1 (hall c (.tail _ hc) ▸ hc)]

omit [DecidableEq α] in
theorem single?_eq_some_iff : s.single? = some a ↔ s.toList = [a] := by
  unfold single?
  split
  next b h => simp [h]
  next h => exact iff_of_false (by simp) fun hs ↦ h a hs

omit [DecidableEq α] in
theorem size_eq_of_mem {t : DistinctList α} (h : ∀ a, a ∈ s ↔ a ∈ t) : s.size = t.size :=
  ((List.perm_ext_iff_of_nodup s.nodup t.nodup).2 h).length_eq

theorem append_cons (s : DistinctList α) (a : α) (rest : List α) :
    s.append (a :: rest) = (s.push a).append rest := rfl

theorem exists_toList_append (s : DistinctList α) (members : List α) :
    ∃ fresh, (s.append members).toList = s.toList ++ fresh := by
  induction members generalizing s with
  | nil => exact ⟨[], (List.append_nil _).symm⟩
  | cons a rest ih =>
    obtain ⟨fresh, hfresh⟩ := ih (s.push a)
    rw [append_cons, hfresh, toList_push]
    split
    · exact ⟨fresh, rfl⟩
    · exact ⟨a :: fresh, List.append_assoc _ _ _⟩

theorem exists_fresh (s : DistinctList α) (members : List α) :
    ∃ fresh, (s.append members).toList = s.toList ++ fresh ∧
      ∀ a ∈ fresh, a ∈ members ∧ a ∉ s := by
  obtain ⟨fresh, hfresh⟩ := exists_toList_append s members
  refine ⟨fresh, hfresh, fun a ha ↦ ?_⟩
  have hnew : a ∉ s := by
    have hnodup := (s.append members).nodup
    rw [hfresh] at hnodup
    exact fun hold ↦ (List.nodup_append.1 hnodup).2.2 a hold a ha rfl
  have hmem : a ∈ s.append members := by
    rw [mem_def, hfresh]
    exact List.mem_append_right _ ha
  exact ⟨(mem_append.1 hmem).resolve_left hnew, hnew⟩

theorem pairwise_push {seen : List α} (hmem : ∀ b, b ∈ s ↔ b ∈ seen)
    (h : s.toList.Pairwise fun b c ↦ seen.idxOf b < seen.idxOf c) (a : α) :
    (s.push a).toList.Pairwise fun b c ↦ (seen ++ [a]).idxOf b < (seen ++ [a]).idxOf c := by
  have hkeep : s.toList.Pairwise fun b c ↦ (seen ++ [a]).idxOf b < (seen ++ [a]).idxOf c := by
    refine h.imp_of_mem fun hb hc hlt ↦ ?_
    rwa [List.idxOf_append_of_mem ((hmem _).1 hb), List.idxOf_append_of_mem ((hmem _).1 hc)]
  rw [toList_push]
  split
  · exact hkeep
  next hnew =>
    refine List.pairwise_append.2 ⟨hkeep, List.pairwise_singleton _ _, ?_⟩
    rintro b hb c hc
    obtain rfl := List.mem_singleton.1 hc
    have hb' := (hmem b).1 hb
    have hc' : c ∉ seen := fun hseen ↦ hnew ((hmem c).2 hseen)
    rw [List.idxOf_append_of_mem hb', List.idxOf_append_of_notMem hc']
    exact Nat.lt_add_right _ (List.idxOf_lt_length_of_mem hb')

theorem pairwise_append {seen : List α} (hmem : ∀ b, b ∈ s ↔ b ∈ seen)
    (h : s.toList.Pairwise fun b c ↦ seen.idxOf b < seen.idxOf c) (members : List α) :
    (s.append members).toList.Pairwise fun b c ↦
      (seen ++ members).idxOf b < (seen ++ members).idxOf c := by
  induction members generalizing s seen with
  | nil => rwa [List.append_nil]
  | cons a rest ih =>
    have hmem' (b : α) : b ∈ s.push a ↔ b ∈ seen ++ [a] := by simp [hmem]
    have hrest := ih hmem' (pairwise_push hmem h a)
    rwa [List.append_assoc] at hrest

theorem pairwise_ofList (members : List α) :
    (ofList members).toList.Pairwise fun b c ↦ members.idxOf b < members.idxOf c := by
  have h : (empty.append members).toList.Pairwise fun b c ↦
      ([] ++ members).idxOf b < ([] ++ members).idxOf c :=
    pairwise_append (by simp [mem_def, empty]) .nil members
  rwa [List.nil_append] at h

end OntologyGuard.DistinctList
