namespace OntologyGuard

universe u

variable {α : Type u}

structure DistinctList (α : Type u) where
  toList : List α
  nodup : toList.Nodup
  deriving DecidableEq

namespace DistinctList

theorem nodup_nil (α : Type u) : ([] : List α).Nodup := .nil

def empty : DistinctList α := ⟨[], nodup_nil α⟩

instance : Inhabited (DistinctList α) := ⟨empty⟩

instance : Membership α (DistinctList α) := ⟨fun s a ↦ a ∈ s.toList⟩

theorem mem_def {s : DistinctList α} {a : α} : a ∈ s ↔ a ∈ s.toList := Iff.rfl

instance [DecidableEq α] (a : α) (s : DistinctList α) : Decidable (a ∈ s) :=
  inferInstanceAs (Decidable (a ∈ s.toList))

def size (s : DistinctList α) : Nat := s.toList.length

def single? (s : DistinctList α) : Option α :=
  match s.toList with
  | [a] => some a
  | _ => none

variable [DecidableEq α]

def push (s : DistinctList α) (a : α) : DistinctList α :=
  if h : a ∈ s.toList then s
  else
    { toList := s.toList ++ [a]
      nodup := by
        simp only [List.nodup_append, s.nodup, List.nodup_cons, List.not_mem_nil,
          not_false_eq_true, List.nodup_nil, and_self, true_and]
        intro x hx y hy e
        simp only [List.mem_singleton] at hy
        exact h (hy ▸ e ▸ hx) }

theorem toList_push (s : DistinctList α) (a : α) :
    (s.push a).toList = if a ∈ s.toList then s.toList else s.toList ++ [a] := by
  unfold push
  split <;> simp_all

@[simp] theorem mem_push {s : DistinctList α} {a b : α} : b ∈ s.push a ↔ b ∈ s ∨ b = a := by
  simp only [mem_def, toList_push]
  split <;> simp_all

def append (s : DistinctList α) (members : List α) : DistinctList α :=
  members.foldl push s

def ofList (members : List α) : DistinctList α := append empty members

@[simp] theorem mem_append {s : DistinctList α} {members : List α} {b : α} :
    b ∈ s.append members ↔ b ∈ s ∨ b ∈ members := by
  induction members generalizing s with
  | nil => simp [append]
  | cons a rest ih =>
    have h : s.append (a :: rest) = (s.push a).append rest := rfl
    rw [h, ih]
    simp [or_assoc]

theorem mem_ofList {members : List α} {b : α} : b ∈ ofList members ↔ b ∈ members := by
  have h : ¬ b ∈ (empty : DistinctList α) := by simp [mem_def, empty]
  simp [ofList, h]

end DistinctList

end OntologyGuard
