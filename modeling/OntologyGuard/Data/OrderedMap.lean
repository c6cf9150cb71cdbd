/-!
Maps that list their entries in the order in which the keys first appeared. Storing a value under a
key that is already present changes the value and not the place.
-/

namespace OntologyGuard

universe u v

variable {κ : Type u} {ν : Type v}

structure OrderedMap (κ : Type u) (ν : Type v) where
  entries : List (κ × ν)
  nodup_keys : (entries.map Prod.fst).Nodup
  deriving DecidableEq

namespace OrderedMap

theorem nodup_keys_nil (κ : Type u) (ν : Type v) : (([] : List (κ × ν)).map Prod.fst).Nodup := .nil

def empty : OrderedMap κ ν := ⟨[], nodup_keys_nil κ ν⟩

variable [DecidableEq κ]

instance : Inhabited (OrderedMap κ ν) := ⟨empty⟩

omit [DecidableEq κ] in
theorem ext_entries {m m' : OrderedMap κ ν} (h : m.entries = m'.entries) : m = m' := by
  cases m; cases m'; simp_all

def keys (m : OrderedMap κ ν) : List κ := m.entries.map Prod.fst

def values (m : OrderedMap κ ν) : List ν := m.entries.map Prod.snd

def size (m : OrderedMap κ ν) : Nat := m.entries.length

def isEmpty (m : OrderedMap κ ν) : Bool := m.entries.isEmpty

def get? (m : OrderedMap κ ν) (key : κ) : Option ν := m.entries.lookup key

def contains (m : OrderedMap κ ν) (key : κ) : Bool := (m.get? key).isSome

/-- Puts an entry in the place of the one with its key, or at the end. -/
def place (key : κ) (value : ν) : List (κ × ν) → List (κ × ν)
  | [] => [(key, value)]
  | entry :: rest => if entry.1 = key then (key, value) :: rest else entry :: place key value rest

theorem map_fst_place (key : κ) (value : ν) (entries : List (κ × ν)) :
    (place key value entries).map Prod.fst =
      if key ∈ entries.map Prod.fst then entries.map Prod.fst
      else entries.map Prod.fst ++ [key] := by
  induction entries with
  | nil => simp [place]
  | cons entry rest ih =>
    by_cases h : entry.1 = key
    · simp [place, h]
    · have h' : ¬ key = entry.1 := fun e ↦ h e.symm
      simp only [place, h, if_false, List.map_cons, ih, List.mem_cons, h', false_or]
      split <;> simp

theorem lookup_cons_if (k key : κ) (value : ν) (rest : List (κ × ν)) :
    ((key, value) :: rest).lookup k = if k = key then some value else rest.lookup k := by
  by_cases h : k = key
  · simp [h]
  · simp [List.lookup_cons, h, beq_false_of_ne h]

theorem lookup_place (key : κ) (value : ν) (entries : List (κ × ν)) (k : κ) :
    (place key value entries).lookup k = if k = key then some value else entries.lookup k := by
  induction entries with
  | nil => simp [place, lookup_cons_if]
  | cons entry rest ih =>
    obtain ⟨a, b⟩ := entry
    by_cases ha : a = key
    · by_cases hk : k = key <;> simp [place, lookup_cons_if, ha, hk]
    · by_cases hk : k = a
      · subst hk
        simp [place, ha]
      · simp [place, lookup_cons_if, ha, hk, ih]

def insert (m : OrderedMap κ ν) (key : κ) (value : ν) : OrderedMap κ ν where
  entries := place key value m.entries
  nodup_keys := by
    rw [map_fst_place]
    split
    · exact m.nodup_keys
    · next h =>
      simp only [List.nodup_append, m.nodup_keys, List.nodup_cons, List.not_mem_nil, not_false_eq_true,
        List.nodup_nil, and_self, true_and]
      intro a ha b hb e
      simp only [List.mem_singleton] at hb
      exact h (hb ▸ e ▸ ha)

theorem keys_insert (m : OrderedMap κ ν) (key : κ) (value : ν) :
    (m.insert key value).keys = if key ∈ m.keys then m.keys else m.keys ++ [key] :=
  map_fst_place key value m.entries

@[simp] theorem get?_insert (m : OrderedMap κ ν) (key : κ) (value : ν) (k : κ) :
    (m.insert key value).get? k = if k = key then some value else m.get? k :=
  lookup_place key value m.entries k

/-- Changes the value under a key, which counts as `default` where there is none. -/
def update (m : OrderedMap κ ν) (key : κ) (default : ν) (f : ν → ν) : OrderedMap κ ν :=
  m.insert key (f ((m.get? key).getD default))

def ofList (pairs : List (κ × ν)) : OrderedMap κ ν :=
  pairs.foldl (fun m pair ↦ m.insert pair.1 pair.2) empty

omit [DecidableEq κ] in
def mapValues {ν' : Type v} (f : κ → ν → ν') (m : OrderedMap κ ν) : OrderedMap κ ν' where
  entries := m.entries.map fun entry ↦ (entry.1, f entry.1 entry.2)
  nodup_keys := by
    have h : (m.entries.map fun entry ↦ (entry.1, f entry.1 entry.2)).map Prod.fst =
        m.entries.map Prod.fst := by simp [Function.comp_def]
    rw [h]
    exact m.nodup_keys

end OrderedMap

end OntologyGuard
