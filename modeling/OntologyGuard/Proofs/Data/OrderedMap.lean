import OntologyGuard.Data.OrderedMap
import OntologyGuard.Proofs.Data.DistinctList

namespace OntologyGuard.OrderedMap

universe u v

variable {κ : Type u} {ν : Type v} [DecidableEq κ]

theorem lookup_eq_some_of_mem {entries : List (κ × ν)} (h : (entries.map Prod.fst).Nodup)
    {key : κ} {value : ν} (hm : (key, value) ∈ entries) : entries.lookup key = some value := by
  induction entries with
  | nil => cases hm
  | cons entry rest ih =>
    obtain ⟨hhead, hrest⟩ := List.nodup_cons.1 (List.map_cons ▸ h)
    rw [show entry = (entry.1, entry.2) from rfl, lookup_cons_if]
    rcases List.mem_cons.1 hm with rfl | hm
    · simp
    · have hne : key ≠ entry.1 := by
        rintro rfl
        exact hhead (List.mem_map.2 ⟨_, hm, rfl⟩)
      rw [if_neg hne, ih hrest hm]

theorem get?_eq_some_iff {m : OrderedMap κ ν} {key : κ} {value : ν} :
    m.get? key = some value ↔ (key, value) ∈ m.entries := by
  constructor
  · intro h
    obtain ⟨before, after, he, -⟩ := List.lookup_eq_some_iff.1 h
    simp [he]
  · exact lookup_eq_some_of_mem m.nodup_keys

theorem lookup_eq_none_of_notMem {entries : List (κ × ν)} {key : κ}
    (h : key ∉ entries.map Prod.fst) : entries.lookup key = none := by
  apply List.lookup_eq_none_iff.2
  intro entry hentry
  simpa using fun heq : key = entry.1 ↦ h (heq ▸ List.mem_map_of_mem hentry)

theorem place_append_left {front entries : List (κ × ν)} {key : κ} {value : ν}
    (h : key ∉ front.map Prod.fst) :
    place key value (front ++ entries) = front ++ place key value entries := by
  induction front with
  | nil => rfl
  | cons entry rest ih =>
    rw [List.map_cons, List.mem_cons, not_or] at h
    rw [List.cons_append, place, if_neg (Ne.symm h.1), ih h.2, List.cons_append]

theorem mem_keys_iff {m : OrderedMap κ ν} {key : κ} :
    key ∈ m.keys ↔ ∃ value, m.get? key = some value := by
  simp only [keys, List.mem_map, get?_eq_some_iff]
  constructor
  · rintro ⟨entry, he, rfl⟩
    exact ⟨entry.2, he⟩
  · rintro ⟨value, he⟩
    exact ⟨_, he, rfl⟩

theorem place_eq_self {entries : List (κ × ν)} {key : κ} {value : ν}
    (h : entries.lookup key = some value) : place key value entries = entries := by
  induction entries with
  | nil => cases h
  | cons entry rest ih =>
    rw [show entry = (entry.1, entry.2) from rfl, lookup_cons_if] at h
    by_cases he : key = entry.1
    · obtain rfl : entry.2 = value := by simpa [he] using h
      simp [place, he]
    · rw [if_neg he] at h
      simp [place, ih h, Ne.symm he]

theorem insert_eq_self {m : OrderedMap κ ν} {key : κ} {value : ν} (h : m.get? key = some value) :
    m.insert key value = m :=
  ext_entries (place_eq_self h)

theorem place_place (key : κ) (value later : ν) (entries : List (κ × ν)) :
    place key later (place key value entries) = place key later entries := by
  induction entries with
  | nil => simp [place]
  | cons entry rest ih =>
    by_cases h : entry.1 = key
    · simp [place, h]
    · simp [place, h, ih]

theorem insert_insert (m : OrderedMap κ ν) (key : κ) (value later : ν) :
    (m.insert key value).insert key later = m.insert key later :=
  ext_entries (place_place key value later m.entries)

omit [DecidableEq κ] in
theorem size_eq_of_keys {m m' : OrderedMap κ ν} (h : ∀ key, key ∈ m.keys ↔ key ∈ m'.keys) :
    m.size = m'.size := by
  have hperm : m.keys.Perm m'.keys :=
    (List.perm_ext_iff_of_nodup m.nodup_keys m'.nodup_keys).2 h
  have hlength := hperm.length_eq
  rwa [keys, keys, List.length_map, List.length_map] at hlength

@[simp] theorem get?_update (m : OrderedMap κ ν) (key : κ) (default : ν) (f : ν → ν) (k : κ) :
    (m.update key default f).get? k =
      if k = key then some (f ((m.get? key).getD default)) else m.get? k :=
  get?_insert m key _ k

theorem flatMap_place {β : Type v} {g : κ × ν → List β} {entries : List (κ × ν)} {key : κ}
    {value : ν} (h : g (key, value) = ((entries.lookup key).map fun v ↦ g (key, v)).getD []) :
    (place key value entries).flatMap g = entries.flatMap g := by
  induction entries with
  | nil => simpa [place] using h
  | cons entry rest ih =>
    rw [show entry = (entry.1, entry.2) from rfl, lookup_cons_if] at h
    by_cases he : entry.1 = key
    · subst he
      simp [place, show g (entry.1, value) = g entry by simpa using h]
    · rw [if_neg (Ne.symm he)] at h
      simp [place, he, ih h]

theorem flatMap_update {β : Type v} {g : κ × ν → List β} {m : OrderedMap κ ν} {key : κ}
    {default : ν} {f : ν → ν} (h : ∀ v, g (key, f v) = g (key, v)) (hdefault : g (key, default) = []) :
    (m.update key default f).entries.flatMap g = m.entries.flatMap g := by
  refine flatMap_place ((h _).trans ?_)
  unfold get?
  cases m.entries.lookup key with
  | none => exact hdefault
  | some v => rfl

theorem get?_foldl_insert (keys : List κ) (m : OrderedMap κ ν) (value : ν) (k : κ) :
    (keys.foldl (fun m key ↦ m.insert key value) m).get? k =
      if k ∈ keys then some value else m.get? k := by
  induction keys generalizing m with
  | nil => simp
  | cons key rest ih =>
    rw [List.foldl_cons, ih, get?_insert]
    by_cases hrest : k ∈ rest
    · simp [hrest]
    · simp [hrest]

theorem get?_ofList (pairs : List (κ × ν)) (k : κ) :
    (ofList pairs).get? k = pairs.reverse.lookup k := by
  have hfold (m : OrderedMap κ ν) : (pairs.foldl (fun m pair ↦ m.insert pair.1 pair.2) m).get? k =
      (pairs.reverse.lookup k).or (m.get? k) := by
    induction pairs generalizing m with
    | nil => rfl
    | cons pair rest ih =>
      have hlast : [pair].lookup k = if k = pair.1 then some pair.2 else none :=
        lookup_cons_if k pair.1 pair.2 []
      rw [List.foldl_cons, ih, List.reverse_cons, List.lookup_append, hlast, get?_insert]
      split <;> simp
  rw [ofList, hfold]
  exact Option.or_none

theorem lookup_map {ν' : Type v} (f : κ → ν → ν') (entries : List (κ × ν)) (key : κ) :
    (entries.map fun entry ↦ (entry.1, f entry.1 entry.2)).lookup key =
      (entries.lookup key).map (f key) := by
  induction entries with
  | nil => rfl
  | cons entry rest ih =>
    rw [List.map_cons, lookup_cons_if, ih, show entry = (entry.1, entry.2) from rfl,
      lookup_cons_if]
    by_cases h : key = entry.1 <;> simp [h]

@[simp] theorem get?_mapValues {ν' : Type v} (f : κ → ν → ν') (m : OrderedMap κ ν) (key : κ) :
    (m.mapValues f).get? key = (m.get? key).map (f key) :=
  lookup_map f m.entries key

section Grouping

variable {α : Type v} (keyOf : α → κ) (default : ν) (f : ν → α → ν)

def collect (m : OrderedMap κ ν) (item : α) : OrderedMap κ ν :=
  m.update (keyOf item) default (f · item)

theorem getD_get?_foldl_collect (items : List α) (m : OrderedMap κ ν) (key : κ) :
    ((items.foldl (collect keyOf default f) m).get? key).getD default =
      (items.filter fun item ↦ keyOf item = key).foldl f ((m.get? key).getD default) := by
  induction items generalizing m with
  | nil => rfl
  | cons item rest ih =>
    rw [List.foldl_cons, ih, collect, get?_update]
    by_cases h : keyOf item = key
    · simp [h]
    · simp [h, Ne.symm h]

theorem keys_foldl_collect {m : OrderedMap κ ν} {keys : DistinctList κ} (h : keys.toList = m.keys)
    (items : List α) : (items.foldl (collect keyOf default f) m).keys =
      (keys.append (items.map keyOf)).toList := by
  induction items generalizing m keys with
  | nil => exact h.symm
  | cons item rest ih =>
    rw [List.foldl_cons, List.map_cons, DistinctList.append_cons]
    refine ih ?_
    rw [DistinctList.toList_push, collect, update, keys_insert, h]

theorem mem_keys_foldl_collect {items : List α} {m : OrderedMap κ ν} {key : κ} :
    key ∈ (items.foldl (collect keyOf default f) m).keys ↔
      key ∈ m.keys ∨ ∃ item ∈ items, keyOf item = key := by
  induction items generalizing m with
  | nil => simp
  | cons item rest ih =>
    rw [List.foldl_cons, ih, collect, update, keys_insert]
    by_cases h : keyOf item ∈ m.keys <;> grind

theorem entries_foldl_collect_append {front : List (κ × ν)} {m own : OrderedMap κ ν}
    (hm : m.entries = front ++ own.entries) {items : List α}
    (hnew : ∀ item ∈ items, keyOf item ∉ front.map Prod.fst) :
    (items.foldl (collect keyOf default f) m).entries =
      front ++ (items.foldl (collect keyOf default f) own).entries := by
  induction items generalizing m own with
  | nil => exact hm
  | cons item rest ih =>
    have hkey := hnew item List.mem_cons_self
    have hget : m.get? (keyOf item) = own.get? (keyOf item) := by
      have hfront := lookup_eq_none_of_notMem hkey
      simp only [get?, hm, List.lookup_append, hfront, Option.none_or]
    refine ih ?_ fun later hmem ↦ hnew later (.tail _ hmem)
    simp only [collect, update, insert, hget, hm]
    exact place_append_left hkey

end Grouping

end OntologyGuard.OrderedMap
