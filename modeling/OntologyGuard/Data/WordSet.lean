namespace OntologyGuard

structure WordSet where
  toList : List String
  increasing : toList.Pairwise (· < ·)
  deriving DecidableEq

namespace WordSet

theorem increasing_nil : ([] : List String).Pairwise (· < ·) := .nil

def empty : WordSet := ⟨[], increasing_nil⟩

instance : Inhabited WordSet := ⟨empty⟩

def place (word : String) : List String → List String
  | [] => [word]
  | head :: rest =>
    if word < head then word :: head :: rest
    else if head = word then head :: rest
    else head :: place word rest

theorem mem_place {word : String} {words : List String} {w : String} :
    w ∈ place word words ↔ w = word ∨ w ∈ words := by
  induction words with
  | nil => simp [place]
  | cons head rest ih =>
    unfold place
    split
    · simp
    · split
      · next h => subst h; simp
      · simp only [List.mem_cons, ih]
        grind

theorem pairwise_place {word : String} {words : List String} (h : words.Pairwise (· < ·)) :
    (place word words).Pairwise (· < ·) := by
  induction words with
  | nil => simp [place]
  | cons head rest ih =>
    obtain ⟨hhead, hrest⟩ := List.pairwise_cons.1 h
    unfold place
    split
    · next hlt =>
      refine List.pairwise_cons.2 ⟨fun b hb ↦ ?_, h⟩
      rcases List.mem_cons.1 hb with rfl | hb
      · exact hlt
      · exact String.lt_trans hlt (hhead b hb)
    · next hge =>
      split
      · exact h
      · next hne =>
        refine List.pairwise_cons.2 ⟨fun b hb ↦ ?_, ih hrest⟩
        rcases mem_place.1 hb with rfl | hb
        · rcases String.le_total head b with hle | hle
          · exact Std.lt_of_le_of_ne hle hne
          · exact absurd (Std.lt_of_le_of_ne hle fun e ↦ hne e.symm) hge
        · exact hhead b hb

def insert (s : WordSet) (word : String) : WordSet where
  toList := place word s.toList
  increasing := pairwise_place s.increasing

def ofList (words : List String) : WordSet := words.foldl insert empty

def contains (s : WordSet) (word : String) : Bool := s.toList.contains word

def size (s : WordSet) : Nat := s.toList.length

theorem mem_insert {s : WordSet} {word w : String} :
    w ∈ (s.insert word).toList ↔ w = word ∨ w ∈ s.toList := mem_place

theorem mem_ofList {words : List String} {w : String} : w ∈ (ofList words).toList ↔ w ∈ words := by
  have general (s : WordSet) : w ∈ (words.foldl insert s).toList ↔ w ∈ s.toList ∨ w ∈ words := by
    induction words generalizing s with
    | nil => simp
    | cons word rest ih => simp only [List.foldl_cons, ih, mem_insert, List.mem_cons]; grind
  simpa [ofList, empty] using general empty

end WordSet

end OntologyGuard
