import Mathlib.Data.List.Basic
import OntologyGuard.Proofs.Storage.FileSystem

namespace OntologyGuard

structure IsName (name : Name) : Prop where
  ne_nil : name ≠ []
  ne_dot : name ≠ [dot]
  ne_dots : name ≠ [dot, dot]
  slash : slash ∉ name
  zero : 0 ∉ name
  length : name.length ≤ FileSystem.nameLimit

instance (name : Name) : Decidable (IsName name) :=
  decidable_of_iff (name ≠ [] ∧ name ≠ [dot] ∧ name ≠ [dot, dot] ∧ OntologyGuard.slash ∉ name ∧ 0 ∉ name ∧
      name.length ≤ FileSystem.nameLimit)
    ⟨fun ⟨hnil, hdot, hdots, hslash, hzero, hlength⟩ ↦ ⟨hnil, hdot, hdots, hslash, hzero, hlength⟩,
      fun ⟨hnil, hdot, hdots, hslash, hzero, hlength⟩ ↦ ⟨hnil, hdot, hdots, hslash, hzero, hlength⟩⟩

namespace FileSystem

variable {fs : FileSystem} {path rest : Pathname} {name : Name} {names place : List Name} {inner : Directory}
  {entry : Entry}

theorem components_append (path rest : Pathname) :
    components (path ++ slash :: rest) = components path ++ components rest := by
  induction path with
  | nil => simp [components]
  | cons byte more ih =>
    simp only [List.cons_append, components, ih]
    split
    · rfl
    · cases hparts : components more with
      | nil => exact absurd hparts (components_ne_nil more)
      | cons part parts => rfl

theorem components_of_notMem (h : slash ∉ name) : components name = [name] := by
  induction name with
  | nil => rfl
  | cons byte more ih =>
    rw [List.mem_cons, not_or] at h
    obtain ⟨hbyte, hmore⟩ := h
    rw [components, if_neg (Ne.symm hbyte), ih hmore]

theorem join_ne_nil (h : path ≠ []) (name : Name) : join path name ≠ [] := by
  unfold join
  split <;> simp [h]

theorem head?_join (h : path ≠ []) (name : Name) : (join path name).head? = path.head? := by
  unfold join
  split <;> rw [List.head?_append_of_ne_nil _ h]

/-- A path that ends with a slash has its last component empty, and otherwise a slash is put in between. -/
theorem join_cases (h : path ≠ []) (name : Name) :
    (∃ front, path = front ++ [slash] ∧ join path name = front ++ slash :: name) ∨
      join path name = path ++ slash :: name := by
  by_cases hlast : path.getLast? = some slash
  · obtain ⟨front, rfl⟩ := List.getLast?_eq_some_iff.1 hlast
    exact .inl ⟨front, rfl, by simp [join]⟩
  · exact .inr (by simp [join, h, hlast])

theorem length_join_le (path : Pathname) (name : Name) : path.length + name.length ≤ (join path name).length := by
  unfold join
  split <;> simp

theorem length_pathTo_le (path : Pathname) (names : List Name) : path.length ≤ (pathTo path names).length := by
  induction names generalizing path with
  | nil => exact Nat.le_refl _
  | cons name more ih =>
    have hfirst := length_join_le path name
    have hrest : (join path name).length ≤ (pathTo path (name :: more)).length := ih (join path name)
    omega

theorem getLast?_ne_slash (hname : IsName name) : name.getLast? ≠ some slash := by
  rw [List.getLast?_eq_some_getLast hname.ne_nil]
  intro heq
  exact hname.slash (Option.some.inj heq ▸ List.getLast_mem hname.ne_nil)

theorem getLast?_append_ne_slash (path : Pathname) (hname : IsName name) :
    (path ++ slash :: name).getLast? ≠ some slash := by
  have hlast : (path ++ slash :: name).getLast? = name.getLast? := by
    rw [List.append_cons, List.getLast?_append_of_ne_nil _ hname.ne_nil]
  exact hlast ▸ getLast?_ne_slash hname

theorem components_pathTo (hne : path ≠ []) (hlast : path.getLast? ≠ some slash)
    (hnames : ∀ name ∈ names, IsName name) : components (pathTo path names) = components path ++ names := by
  induction names generalizing path with
  | nil => exact (List.append_nil _).symm
  | cons name more ih =>
    obtain ⟨hname, hmore⟩ := List.forall_mem_cons.1 hnames
    have hjoin : join path name = path ++ slash :: name := by simp [join, hne, hlast]
    rw [pathTo, List.foldl_cons, hjoin, ← pathTo, ih (by simp) (getLast?_append_ne_slash path hname) hmore,
      components_append, components_of_notMem hname.slash, List.append_assoc]
    rfl

theorem components_pathTo_nil (hne : names ≠ []) (hnames : ∀ name ∈ names, IsName name) :
    components (pathTo [] names) = names := by
  obtain ⟨name, more, rfl⟩ := List.exists_cons_of_ne_nil hne
  obtain ⟨hname, hmore⟩ := List.forall_mem_cons.1 hnames
  have hfirst : pathTo [] (name :: more) = pathTo name more := rfl
  rw [hfirst, components_pathTo hname.ne_nil (getLast?_ne_slash hname) hmore, components_of_notMem hname.slash]
  rfl

theorem checkPath_eq_ok_iff : checkPath path = .ok () ↔ path ≠ [] ∧ 0 ∉ path ∧ path.length < pathLimit := by
  simp only [checkPath, List.isEmpty_iff, List.contains_iff_mem]
  by_cases hempty : path = []
  · simp [hempty]
  · by_cases hzero : 0 ∈ path
    · simp [hempty, hzero]
    · simp [hempty, hzero]

theorem checkPath_of_entry (h : fs.entry path = .ok entry) : checkPath path = .ok () := by
  obtain ⟨_, hresolve, -⟩ := bind_eq_ok h
  obtain ⟨_, hcheck, -⟩ := bind_eq_ok hresolve
  exact hcheck

theorem checkPath_join (h : checkPath path = .ok ()) (hname : IsName name)
    (hlength : (join path name).length < pathLimit) : checkPath (join path name) = .ok () := by
  obtain ⟨hne, hzero, -⟩ := checkPath_eq_ok_iff.1 h
  refine checkPath_eq_ok_iff.2 ⟨join_ne_nil hne name, ?_, hlength⟩
  have hslash : (0 : UInt8) ≠ slash := by decide
  unfold join
  split <;> simp [hzero, hname.zero, hslash]

theorem exists_place_of_entry (h : fs.entry path = .ok entry) :
    ∃ place, fs.resolve path = .ok place ∧ fs.root.find? place = some entry := by
  obtain ⟨place, hplace, h⟩ := bind_eq_ok h
  split at h
  · next found hfound =>
    obtain rfl := Except.ok.inj h
    exact ⟨place, hplace, hfound⟩
  · cases h

theorem follow_nil (h : follow fs.root names [[]] = .ok place) : names.reverse = place := by
  simp only [follow] at h
  split at h
  · cases h
  · exact Except.ok.inj h
  · cases h
  · exact Except.ok.inj h

theorem follow_join (hpath : path ≠ []) (hname : IsName name)
    (h : follow fs.root (fs.startOf path) (components path) = .ok place)
    (hplace : fs.root.find? place = some (.folder inner)) (hentry : inner.entry? name = some entry) :
    follow fs.root (fs.startOf path) (components (join path name)) = .ok (place ++ [name]) := by
  have hlast := follow_name hplace ⟨hname.ne_nil, hname.ne_dot, hname.ne_dots⟩ (Nat.not_lt.2 hname.length) hentry
  have hcomponents := components_of_notMem hname.slash
  obtain ⟨front, hfront, hjoin⟩ | hjoin := join_cases hpath name
  · have hsplit : components path = components front ++ [[]] := hfront ▸ components_append front []
    rw [hsplit, follow_append] at h
    obtain ⟨before, hbefore, h⟩ := bind_eq_ok h
    obtain rfl : before = place := by rw [← follow_nil h, List.reverse_reverse]
    rw [hjoin, components_append, hcomponents, follow_append, hbefore, ok_bind, hlast]
  · rw [hjoin, components_append, hcomponents, follow_append, h, ok_bind, hlast]

theorem entry_join (h : fs.entry path = .ok (.folder inner)) (hname : IsName name)
    (hentry : inner.entry? name = some entry) (hlength : (join path name).length < pathLimit) :
    fs.entry (join path name) = .ok entry := by
  have hcheck := checkPath_of_entry h
  have hne := (checkPath_eq_ok_iff.1 hcheck).1
  obtain ⟨place, hresolve, hplace⟩ := exists_place_of_entry h
  rw [resolve_of_checkPath hcheck] at hresolve
  have hstart : fs.startOf (join path name) = fs.startOf path := by rw [startOf, head?_join hne, startOf]
  have hresolve' : fs.resolve (join path name) = .ok (place ++ [name]) := by
    rw [resolve_of_checkPath (checkPath_join hcheck hname hlength), hstart,
      follow_join hne hname hresolve hplace hentry]
  exact entry_of_resolve hresolve' (by rw [Directory.find?_concat hplace, hentry])

theorem entry_pathTo (h : fs.entry path = .ok (.folder inner)) (hnames : ∀ name ∈ names, IsName name)
    (hfind : inner.find? names = some entry) (hlength : (pathTo path names).length < pathLimit) :
    fs.entry (pathTo path names) = .ok entry := by
  induction names generalizing path inner with
  | nil =>
    obtain rfl := Option.some.inj hfind
    exact h
  | cons name more ih =>
    obtain ⟨hname, hmore⟩ := List.forall_mem_cons.1 hnames
    rw [Directory.find?_cons] at hfind
    obtain ⟨found, hfound, hrest⟩ := Option.bind_eq_some_iff.1 hfind
    have hshort : (join path name).length < pathLimit :=
      Nat.lt_of_le_of_lt (length_pathTo_le (join path name) more) hlength
    have hjoin := entry_join h hname hfound hshort
    cases found with
    | folder sub => exact ih hjoin hmore hrest hlength
    | leaf found =>
      cases more with
      | nil =>
        obtain rfl := Option.some.inj hrest
        exact hjoin
      | cons _ _ => cases hrest

theorem entry_of_list (h : fs.list path = .ok inner) : fs.entry path = .ok (.folder inner) := by
  obtain ⟨entry, hentry, h⟩ := bind_eq_ok h
  split at h
  · obtain rfl := Except.ok.inj h
    exact hentry
  · cases h
  · cases h

theorem list_of_entry (h : fs.entry path = .ok (.folder inner)) : fs.list path = .ok inner := by
  rw [list, h]
  rfl

theorem list_append_slash (h : fs.list path = .ok inner) (hlength : path.length + 1 < pathLimit) :
    fs.list (path ++ [slash]) = .ok inner := by
  have hentry := entry_of_list h
  have hcheck := checkPath_of_entry hentry
  obtain ⟨hne, hzero, -⟩ := checkPath_eq_ok_iff.1 hcheck
  obtain ⟨place, hresolve, hplace⟩ := exists_place_of_entry hentry
  rw [resolve_of_checkPath hcheck] at hresolve
  have hcheck' : checkPath (path ++ [slash]) = .ok () := by
    have hslash : (0 : UInt8) ≠ slash := by decide
    exact checkPath_eq_ok_iff.2 ⟨by simp, by simp [hzero, hslash], by simpa using hlength⟩
  have hstart : fs.startOf (path ++ [slash]) = fs.startOf path := by
    rw [startOf, List.head?_append_of_ne_nil _ hne, startOf]
  have hlast : follow fs.root place.reverse [[]] = .ok place := by simp [follow, hplace]
  have hresolve' : fs.resolve (path ++ [slash]) = .ok place := by
    rw [resolve_of_checkPath hcheck', hstart, components_append, follow_append, hresolve, ok_bind]
    exact hlast
  exact list_of_entry (entry_of_resolve hresolve' hplace)

theorem list_append_slashes (h : fs.list path = .ok inner) (n : Nat) (hlength : path.length + n < pathLimit) :
    fs.list (path ++ List.replicate n slash) = .ok inner := by
  induction n with
  | zero => simpa using h
  | succ n ih =>
    rw [List.replicate_succ', ← List.append_assoc]
    refine list_append_slash (ih (by omega)) ?_
    rw [List.length_append, List.length_replicate]
    omega

theorem length_of_read {content : Bytes} (h : fs.read path = .ok content) : path.length < pathLimit := by
  obtain ⟨entry, hentry, -⟩ := bind_eq_ok h
  exact (checkPath_eq_ok_iff.1 (checkPath_of_entry hentry)).2.2

end FileSystem

end OntologyGuard
