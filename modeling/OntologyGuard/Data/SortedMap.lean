namespace OntologyGuard

universe u

variable {ν : Type u}

structure SortedMap (ν : Type u) where
  entries : List (String × ν)
  increasing : (entries.map Prod.fst).Pairwise (· < ·)
  deriving DecidableEq

namespace SortedMap

theorem increasing_nil (ν : Type u) : (([] : List (String × ν)).map Prod.fst).Pairwise (· < ·) := .nil

def empty : SortedMap ν := ⟨[], increasing_nil ν⟩

instance : Inhabited (SortedMap ν) := ⟨empty⟩

/-- Puts an entry in the place of the one with its key, or between those around it. -/
def place (key : String) (value : ν) : List (String × ν) → List (String × ν)
  | [] => [(key, value)]
  | entry :: rest =>
    if key < entry.1 then (key, value) :: entry :: rest
    else if entry.1 = key then (key, value) :: rest
    else entry :: place key value rest

theorem mem_keys_place {key : String} {value : ν} {entries : List (String × ν)} {k : String} :
    k ∈ (place key value entries).map Prod.fst ↔ k = key ∨ k ∈ entries.map Prod.fst := by
  induction entries with
  | nil => simp [place]
  | cons entry rest ih =>
    unfold place
    split
    · simp
    · split
      · next h => simp [h]
      · simp only [List.map_cons, List.mem_cons, ih]
        grind

theorem pairwise_place {key : String} {value : ν} {entries : List (String × ν)}
    (h : (entries.map Prod.fst).Pairwise (· < ·)) :
    ((place key value entries).map Prod.fst).Pairwise (· < ·) := by
  induction entries with
  | nil => simp [place]
  | cons entry rest ih =>
    obtain ⟨hhead, hrest⟩ := List.pairwise_cons.1 (List.map_cons ▸ h)
    unfold place
    split
    · next hlt =>
      refine List.pairwise_cons.2 ⟨fun b hb ↦ ?_, h⟩
      rcases List.mem_cons.1 hb with rfl | hb
      · exact hlt
      · exact String.lt_trans hlt (hhead b hb)
    · next hge =>
      split
      · next he => exact List.pairwise_cons.2 ⟨fun b hb ↦ he ▸ hhead b hb, hrest⟩
      · next hne =>
        refine List.pairwise_cons.2 ⟨fun b hb ↦ ?_, ih hrest⟩
        rcases mem_keys_place.1 hb with rfl | hb
        · rcases String.le_total entry.1 b with hle | hle
          · exact Std.lt_of_le_of_ne hle hne
          · exact absurd (Std.lt_of_le_of_ne hle fun e ↦ hne e.symm) hge
        · exact hhead b hb

def insert (m : SortedMap ν) (key : String) (value : ν) : SortedMap ν where
  entries := place key value m.entries
  increasing := pairwise_place m.increasing

/-- Stores the pairs one after the other; of two with one key the later one stays. -/
def ofList (pairs : List (String × ν)) : SortedMap ν :=
  pairs.foldl (fun m pair ↦ m.insert pair.1 pair.2) empty

end SortedMap

end OntologyGuard
