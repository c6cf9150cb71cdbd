import Mathlib.Data.List.DropRight
import OntologyGuard.Text.Blank

namespace OntologyGuard.Text

variable {p : Char → Bool} {cs : List Char} {c : Char}

def strip (p : Char → Bool) (cs : List Char) : List Char := (cs.dropWhile p).rdropWhile p

theorem trim_eq_strip (cs : List Char) : trim cs = strip isBlank cs := rfl

theorem mem_of_mem_strip (h : c ∈ strip p cs) : c ∈ cs :=
  (List.dropWhile_suffix p).mem ((List.rdropWhile_prefix p _).mem h)

theorem mem_dropWhile_of_mem (h : c ∈ cs) (hp : p c = false) : c ∈ cs.dropWhile p := by
  rw [← List.takeWhile_append_dropWhile (p := p) (l := cs), List.mem_append] at h
  refine h.resolve_left fun hc ↦ ?_
  rw [List.mem_takeWhile_imp hc] at hp
  cases hp

theorem mem_strip_of_mem (h : c ∈ cs) (hp : p c = false) : c ∈ strip p cs := by
  have hright : c ∈ (cs.dropWhile p).reverse := List.mem_reverse.2 (mem_dropWhile_of_mem h hp)
  exact List.mem_reverse.2 (mem_dropWhile_of_mem hright hp)

structure Trimmed (cs : List Char) : Prop where
  head : ∀ c ∈ cs.head?, isBlank c = false
  last : ∀ c ∈ cs.getLast?, isBlank c = false

theorem trimmed_iff : Trimmed cs ↔
    cs.head?.all (fun c ↦ !isBlank c) = true ∧ cs.getLast?.all (fun c ↦ !isBlank c) = true := by
  simp only [Option.all_eq_true, Bool.not_eq_true']
  exact ⟨fun h ↦ ⟨h.head, h.last⟩, fun ⟨hhead, hlast⟩ ↦ ⟨hhead, hlast⟩⟩

instance (cs : List Char) : Decidable (Trimmed cs) := decidable_of_iff' _ trimmed_iff

theorem Trimmed.trim_eq (h : Trimmed cs) : trim cs = cs := by
  have hhead : cs.dropWhile isBlank = cs := by
    rw [List.dropWhile_eq_self_iff]
    intro hlen
    rw [h.head _ (by simp [List.head?_eq_getElem?, hlen])]
    exact Bool.false_ne_true
  have hlast : cs.rdropWhile isBlank = cs := by
    rw [List.rdropWhile_eq_self_iff]
    intro hne
    rw [h.last _ (List.getLast_mem_getLast? hne)]
    exact Bool.false_ne_true
  rw [trim_eq_strip, strip, hhead, hlast]

theorem Trimmed.left {rest : List Char} (h : Trimmed (cs ++ rest)) (hlast : ∀ c ∈ cs.getLast?, isBlank c = false) :
    Trimmed cs where
  head c hc := h.head c (by rw [List.head?_append, Option.mem_def.1 hc]; rfl)
  last := hlast

theorem Trimmed.right {rest : List Char} (h : Trimmed (rest ++ cs)) (hhead : ∀ c ∈ cs.head?, isBlank c = false) :
    Trimmed cs where
  head := hhead
  last c hc := h.last c (by rw [List.getLast?_append, Option.mem_def.1 hc]; rfl)

end OntologyGuard.Text
