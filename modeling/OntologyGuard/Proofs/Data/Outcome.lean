import Mathlib.Data.List.Forall2

namespace OntologyGuard

universe u v

variable {ε : Type u} {α β : Type v} {x : Except ε α} {f : α → Except ε β} {b : β}

@[simp] theorem ok_bind (a : α) (f : α → Except ε β) : (Except.ok a >>= f) = f a := rfl

@[simp] theorem error_bind (fault : ε) (f : α → Except ε β) :
    (Except.error fault >>= f) = .error fault := rfl

@[simp] theorem ok_mapError {ε' : Type u} (f : ε → ε') (a : α) :
    (Except.ok a : Except ε α).mapError f = .ok a := rfl

@[simp] theorem error_mapError {ε' : Type u} (f : ε → ε') (fault : ε) :
    (Except.error fault : Except ε α).mapError f = .error (f fault) := rfl

theorem bind_eq_ok (h : (x >>= f) = .ok b) : ∃ a, x = .ok a ∧ f a = .ok b := by
  cases x with
  | error fault => cases h
  | ok a => exact ⟨a, rfl, h⟩

theorem map_eq_ok {f : α → β} (h : x.map f = .ok b) : ∃ a, x = .ok a ∧ f a = b := by
  cases x with
  | error fault => cases h
  | ok a => exact ⟨a, rfl, Except.ok.inj h⟩

theorem mapM_eq_ok_iff {as : List α} {bs : List β} :
    as.mapM f = .ok bs ↔ List.Forall₂ (fun a b ↦ f a = .ok b) as bs := by
  induction as generalizing bs with
  | nil => simp [pure, Except.pure, eq_comm]
  | cons a rest ih =>
    rw [List.mapM_cons]
    constructor
    · intro h
      obtain ⟨b, hb, h⟩ := bind_eq_ok h
      obtain ⟨more, hmore, h⟩ := bind_eq_ok h
      obtain rfl := Except.ok.inj h
      exact .cons hb (ih.1 hmore)
    · intro h
      cases h with
      | cons hb hmore =>
        rw [hb, ok_bind, ih.2 hmore, ok_bind]
        rfl

theorem mapM_eq_ok_iff_map {g : β → α} {p : β → Prop} (h : ∀ a b, f a = .ok b ↔ a = g b ∧ p b) {as : List α}
    {bs : List β} : as.mapM f = .ok bs ↔ as = bs.map g ∧ ∀ b ∈ bs, p b := by
  simp only [mapM_eq_ok_iff, h]
  induction bs generalizing as with
  | nil => simp
  | cons b more ih =>
    rw [List.forall₂_cons_right_iff]
    constructor
    · rintro ⟨a, rest, ⟨rfl, hb⟩, hrest, rfl⟩
      obtain ⟨rfl, hall⟩ := ih.1 hrest
      exact ⟨rfl, List.forall_mem_cons.2 ⟨hb, hall⟩⟩
    · rintro ⟨rfl, hall⟩
      obtain ⟨hb, hmore⟩ := List.forall_mem_cons.1 hall
      exact ⟨g b, more.map g, ⟨rfl, hb⟩, ih.2 ⟨rfl, hmore⟩, rfl⟩

end OntologyGuard
