import Mathlib.Data.List.Nodup
import Mathlib.Data.List.Perm.Subperm
import Mathlib.Data.Nat.Find
import OntologyGuard.Hierarchy

namespace OntologyGuard.Hierarchy

variable {edges edges' : List (Iri × Iri)} {n : Nat} {a b : Iri}

/-- A way down over so many edges, each of them given as parent and child. -/
inductive Path (edges : List (Iri × Iri)) : Nat → Iri → Iri → Prop
  | nil (a : Iri) : Path edges 0 a a
  | snoc {n : Nat} {a b c : Iri} (path : Path edges n a b) (edge : (b, c) ∈ edges) :
    Path edges (n + 1) a c

def Acyclic (edges : List (Iri × Iri)) : Prop := ∀ n a, ¬ Path edges (n + 1) a a

/-- The number of edges of a longest path. With a cycle there is none. -/
structure IsHeight (edges : List (Iri × Iri)) (height : Nat) : Prop where
  attained : ∃ a b, Path edges height a b
  bound : ∀ n a b, Path edges n a b → n ≤ height

/-- No path to the class has more edges. -/
def Within (edges : List (Iri × Iri)) (level : Nat) (iri : Iri) : Prop :=
  ∀ n a, Path edges n a iri → n ≤ level

theorem Path.mono (h : ∀ edge ∈ edges, edge ∈ edges') (path : Path edges n a b) :
    Path edges' n a b := by
  induction path with
  | nil a => exact .nil a
  | snoc path edge ih => exact ih.snoc (h _ edge)

theorem Path.trans {m : Nat} {c : Iri} (path : Path edges n a b) (further : Path edges m b c) :
    Path edges (n + m) a c := by
  induction further with
  | nil _ => exact path
  | snoc _ edge ih => exact (ih path).snoc edge

theorem Path.cons {c : Iri} (edge : (a, b) ∈ edges) (path : Path edges n b c) :
    Path edges (n + 1) a c := by
  rw [Nat.add_comm]
  exact ((Path.nil a).snoc edge).trans path

theorem Path.exists_first (path : Path edges (n + 1) a b) :
    ∃ c, (a, c) ∈ edges ∧ Path edges n c b := by
  induction n generalizing b with
  | zero =>
    cases path with
    | snoc path edge =>
      cases path
      exact ⟨b, edge, .nil b⟩
  | succ n ih =>
    cases path with
    | snoc path edge =>
      obtain ⟨c, hfirst, further⟩ := ih path
      exact ⟨c, hfirst, further.snoc edge⟩

theorem Path.length_add_le {rank : Iri → Nat} (h : ∀ edge ∈ edges, rank edge.1 < rank edge.2)
    (path : Path edges n a b) : rank a + n ≤ rank b := by
  induction path with
  | nil a => exact Nat.le_refl _
  | snoc path edge ih =>
    have hedge := h _ edge
    dsimp only at hedge
    omega

theorem Acyclic.of_rank (rank : Iri → Nat) (h : ∀ edge ∈ edges, rank edge.1 < rank edge.2) :
    Acyclic edges := by
  intro n a path
  have hle := path.length_add_le h
  omega

theorem Within.mono {low high : Nat} (h : Within edges low a) (hle : low ≤ high) :
    Within edges high a :=
  fun n b path ↦ Nat.le_trans (h n b path) hle

theorem Within.parent {level : Nat} (h : Within edges (level + 1) b) (edge : (a, b) ∈ edges) :
    Within edges level a :=
  fun n c path ↦ Nat.le_of_succ_le_succ (h (n + 1) c (path.snoc edge))

theorem Within.not_mem (h : Within edges 0 b) : (a, b) ∉ edges := by
  intro edge
  have hle := h 1 a ((Path.nil a).snoc edge)
  omega

theorem Path.visited (hacyclic : Acyclic edges) (path : Path edges n a b) :
    ∃ visited : List Iri, visited.length = n ∧ visited.Nodup ∧
      ∀ c ∈ visited, (∃ parent, (parent, c) ∈ edges) ∧ ∃ m, Path edges m c b := by
  induction path with
  | nil a => exact ⟨[], rfl, .nil, fun c hc ↦ absurd hc List.not_mem_nil⟩
  | @snoc n a b c path edge ih =>
    obtain ⟨visited, hlength, hnodup, hmem⟩ := ih
    have hnew : c ∉ visited := by
      intro hc
      obtain ⟨-, m, back⟩ := hmem c hc
      exact hacyclic m c (back.snoc edge)
    refine ⟨c :: visited, by rw [List.length_cons, hlength], hnodup.cons hnew, ?_⟩
    intro d hd
    rcases List.mem_cons.1 hd with rfl | hd
    · exact ⟨⟨b, edge⟩, 0, .nil d⟩
    · obtain ⟨hparent, m, down⟩ := hmem d hd
      exact ⟨hparent, m + 1, down.snoc edge⟩

theorem Acyclic.length_le (h : Acyclic edges) {classes : List Iri}
    (hclasses : ∀ edge ∈ edges, edge.2 ∈ classes) (path : Path edges n a b) :
    n ≤ classes.length := by
  obtain ⟨visited, hlength, hnodup, hmem⟩ := path.visited h
  have hsubset : visited ⊆ classes := by
    intro c hc
    obtain ⟨⟨parent, edge⟩, -⟩ := hmem c hc
    exact hclasses _ edge
  rw [← hlength]
  exact (hnodup.subperm hsubset).length_le

theorem Acyclic.exists_isHeight (h : Acyclic edges) {classes : List Iri}
    (hclasses : ∀ edge ∈ edges, edge.2 ∈ classes) :
    ∃ height, IsHeight edges height ∧ height ≤ classes.length := by
  classical
  let occurs (n : Nat) : Prop := ∃ a b, Path edges n a b
  have hbound (n : Nat) (hn : occurs n) : n ≤ classes.length := by
    obtain ⟨a, b, path⟩ := hn
    exact h.length_le hclasses path
  have hzero : occurs 0 := ⟨default, default, .nil default⟩
  refine ⟨Nat.findGreatest occurs classes.length, ⟨?_, ?_⟩, Nat.findGreatest_le _⟩
  · exact Nat.findGreatest_spec (Nat.zero_le _) hzero
  · intro n a b path
    exact Nat.le_findGreatest (hbound n ⟨a, b, path⟩) ⟨a, b, path⟩

end OntologyGuard.Hierarchy
