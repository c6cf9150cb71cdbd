import OntologyGuard.Data.SortedMap
import OntologyGuard.Data.WordSet
import OntologyGuard.Proofs.Data.OrderedMap

namespace OntologyGuard

universe u v

theorem foldl_eq_append {σ : Type u} {α : Type v} (view : σ → List α) {insert : σ → α → σ}
    (Ordered : List α → Prop) (hfront : ∀ front back, Ordered (front ++ back) → Ordered front)
    (hinsert : ∀ s a, Ordered (view s ++ [a]) → view (insert s a) = view s ++ [a])
    (later : List α) (s : σ) (h : Ordered (view s ++ later)) :
    view (later.foldl insert s) = view s ++ later := by
  induction later generalizing s with
  | nil => exact (List.append_nil _).symm
  | cons a rest ih =>
    have hsplit : view s ++ a :: rest = (view s ++ [a]) ++ rest := by simp
    rw [hsplit] at h
    have hview := hinsert s a (hfront _ _ h)
    rw [List.foldl_cons, ih _ (hview ▸ h), hview, hsplit]

namespace OrderedMap

variable {κ : Type u} {ν : Type v} [DecidableEq κ]

theorem place_append {key : κ} {value : ν} {entries : List (κ × ν)}
    (h : key ∉ entries.map Prod.fst) :
    place key value entries = entries ++ [(key, value)] := by
  induction entries with
  | nil => rfl
  | cons entry rest ih =>
    rw [List.map_cons, List.mem_cons, not_or] at h
    rw [place, if_neg (Ne.symm h.1), ih h.2, List.cons_append]

theorem ofList_entries (m : OrderedMap κ ν) : ofList m.entries = m := by
  refine ext_entries (foldl_eq_append entries (fun entries ↦ (entries.map Prod.fst).Nodup)
    ?_ ?_ m.entries empty m.nodup_keys)
  · intro front back h
    rw [List.map_append] at h
    exact (List.nodup_append.1 h).1
  · intro m pair h
    rw [List.map_append] at h
    exact place_append fun hmem ↦
      (List.nodup_append.1 h).2.2 _ hmem _ (List.mem_singleton.2 rfl) rfl

end OrderedMap

namespace DistinctList

variable {α : Type u} [DecidableEq α]

omit [DecidableEq α] in
theorem ext_toList {s t : DistinctList α} (h : s.toList = t.toList) : s = t := by
  cases s; cases t; simp_all

theorem ofList_toList (s : DistinctList α) : ofList s.toList = s := by
  refine ext_toList (foldl_eq_append toList List.Nodup ?_ ?_ s.toList empty s.nodup)
  · exact fun front back h ↦ (List.nodup_append.1 h).1
  · intro s a h
    have hnew : a ∉ s.toList := fun hmem ↦ (List.nodup_append.1 h).2.2 a hmem a (List.mem_singleton.2 rfl) rfl
    rw [toList_push, if_neg hnew]

end DistinctList

namespace WordSet

theorem ext_toList {s t : WordSet} (h : s.toList = t.toList) : s = t := by
  cases s; cases t; simp_all

theorem place_append {word : String} {words : List String} (h : ∀ w ∈ words, w < word) :
    place word words = words ++ [word] := by
  induction words with
  | nil => rfl
  | cons head rest ih =>
    have hhead := h head List.mem_cons_self
    have hne : head ≠ word := fun e ↦ String.lt_irrefl word (e ▸ hhead)
    have hrest := ih fun w hw ↦ h w (List.mem_cons_of_mem head hw)
    rw [place, if_neg (String.lt_asymm hhead), if_neg hne, hrest, List.cons_append]

theorem ofList_toList (s : WordSet) : ofList s.toList = s := by
  refine ext_toList (foldl_eq_append toList (List.Pairwise (· < ·)) ?_ ?_ s.toList empty
    s.increasing)
  · exact fun front back h ↦ (List.pairwise_append.1 h).1
  · intro s word h
    exact place_append fun w hw ↦
      (List.pairwise_append.1 h).2.2 w hw word (List.mem_singleton.2 rfl)

end WordSet

namespace SortedMap

variable {ν : Type u}

theorem ext_entries {m m' : SortedMap ν} (h : m.entries = m'.entries) : m = m' := by
  cases m; cases m'; simp_all

theorem place_append {key : String} {value : ν} {entries : List (String × ν)}
    (h : ∀ k ∈ entries.map Prod.fst, k < key) :
    place key value entries = entries ++ [(key, value)] := by
  induction entries with
  | nil => rfl
  | cons entry rest ih =>
    have hhead := h entry.1 List.mem_cons_self
    have hne : entry.1 ≠ key := fun e ↦ String.lt_irrefl key (e ▸ hhead)
    have hrest := ih fun k hk ↦ h k (List.mem_cons_of_mem entry.1 hk)
    rw [place, if_neg (String.lt_asymm hhead), if_neg hne, hrest, List.cons_append]

theorem mem_place {key : String} {value : ν} {entries : List (String × ν)} {entry : String × ν}
    (h : key ∉ entries.map Prod.fst) :
    entry ∈ place key value entries ↔ entry = (key, value) ∨ entry ∈ entries := by
  induction entries with
  | nil => simp [place]
  | cons first rest ih =>
    rw [List.map_cons, List.mem_cons, not_or] at h
    unfold place
    split
    · exact List.mem_cons
    · rw [if_neg (Ne.symm h.1), List.mem_cons, ih h.2, List.mem_cons, or_left_comm]

theorem mem_ofList {pairs : List (String × ν)} (h : (pairs.map Prod.fst).Nodup) {entry : String × ν} :
    entry ∈ (ofList pairs).entries ↔ entry ∈ pairs := by
  have hfold (later : List (String × ν)) (m : SortedMap ν) (hlater : (later.map Prod.fst).Nodup)
      (hnew : ∀ k ∈ later.map Prod.fst, k ∉ m.entries.map Prod.fst) :
      entry ∈ (later.foldl (fun m pair ↦ m.insert pair.1 pair.2) m).entries ↔
        entry ∈ m.entries ∨ entry ∈ later := by
    induction later generalizing m with
    | nil => simp
    | cons pair rest ih =>
      obtain ⟨hpair, hrest⟩ := List.nodup_cons.1 hlater
      have hinsert : entry ∈ place pair.1 pair.2 m.entries ↔ _ := mem_place (hnew pair.1 List.mem_cons_self)
      rw [List.foldl_cons, ih (m.insert pair.1 pair.2) hrest, insert, hinsert, List.mem_cons, or_assoc]
      · exact or_left_comm
      · intro k hk hkey
        rcases mem_keys_place.1 hkey with rfl | hold
        · exact hpair hk
        · exact hnew k (List.mem_cons_of_mem pair.1 hk) hold
  have hall := hfold pairs empty h fun _ _ ↦ List.not_mem_nil
  rw [ofList, hall]
  exact or_iff_right List.not_mem_nil

theorem ofList_entries (m : SortedMap ν) : ofList m.entries = m := by
  refine ext_entries (foldl_eq_append entries (fun entries ↦ (entries.map Prod.fst).Pairwise (· < ·))
    ?_ ?_ m.entries empty m.increasing)
  · intro front back h
    rw [List.map_append] at h
    exact (List.pairwise_append.1 h).1
  · intro m pair h
    rw [List.map_append] at h
    exact place_append fun k hk ↦
      (List.pairwise_append.1 h).2.2 k hk pair.1 (List.mem_singleton.2 rfl)

end SortedMap

end OntologyGuard
