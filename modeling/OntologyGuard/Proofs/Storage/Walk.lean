import Mathlib.Data.List.Sort
import OntologyGuard.Proofs.Storage.Pathname
import OntologyGuard.Storage.Walk

namespace OntologyGuard

def Directory.AllNames : Directory → Prop
  | empty => True
  | leaf name _ rest => IsName name ∧ rest.AllNames
  | folder name inner rest => IsName name ∧ inner.AllNames ∧ rest.AllNames

instance Directory.decidableAllNames : (root : Directory) → Decidable root.AllNames
  | empty => inferInstanceAs (Decidable True)
  | leaf name _ rest =>
    have := decidableAllNames rest
    inferInstanceAs (Decidable (IsName name ∧ rest.AllNames))
  | folder name inner rest =>
    have := decidableAllNames inner
    have := decidableAllNames rest
    inferInstanceAs (Decidable (IsName name ∧ inner.AllNames ∧ rest.AllNames))

structure Directory.WellFormed (root : Directory) : Prop where
  sorted : root.Sorted
  names : root.AllNames

instance (root : Directory) : Decidable root.WellFormed :=
  decidable_of_iff (root.Sorted ∧ root.AllNames)
    ⟨fun ⟨hsorted, hnames⟩ ↦ ⟨hsorted, hnames⟩, fun ⟨hsorted, hnames⟩ ↦ ⟨hsorted, hnames⟩⟩

namespace FileSystem

variable {fs : FileSystem} {qualifies : Name → Bool} {path : Pathname} {root : Directory} {name : Name}
  {all below items : List Walked} {item : Walked}

theorem Walked.names_below (name : Name) (item : Walked) : (item.below name).names = name :: item.names := by
  cases item <;> rfl

theorem filter_ifListed (h : below = all.filter fun item ↦ item.names.all qualifies) :
    fs.ifListed path below = (fs.ifListed path all).filter fun item ↦ item.names.all qualifies := by
  unfold ifListed
  split
  · exact h
  · rfl

theorem filter_walkLeaf (path : Pathname) (found : Leaf) :
    (fs.walkLeaf path found).filter (fun item ↦ item.names.all qualifies) = fs.walkLeaf path found := by
  cases found with
  | file content => rfl
  | sink => rfl
  | locked isFolder =>
    cases isFolder
    · rfl
    · exact (filter_ifListed rfl).symm

theorem filter_map_below (name : Name) (items : List Walked) :
    ((items.map (·.below name)).filter fun item ↦ item.names.all qualifies) =
      if qualifies name then (items.filter fun item ↦ item.names.all qualifies).map (·.below name) else [] := by
  rw [List.filter_map]
  by_cases hname : qualifies name
  · simp [hname, Function.comp_def, Walked.names_below]
  · simp [hname, Function.comp_def, Walked.names_below]

theorem walk_eq_filter (qualifies : Name → Bool) (path : Pathname) (root : Directory) :
    fs.walk qualifies path root =
      (fs.walk (fun _ ↦ true) path root).filter fun item ↦ item.names.all qualifies := by
  induction root generalizing path with
  | empty => rfl
  | leaf name found rest ih =>
    rw [walk, walk, if_pos rfl, List.filter_append, filter_map_below, filter_walkLeaf, ih]
  | folder name inner rest ihinner ihrest =>
    rw [walk, walk, if_pos rfl, List.filter_append, filter_map_below, ← filter_ifListed (ihinner _), ihrest]

theorem mem_walk_iff : item ∈ fs.walk qualifies path root ↔
    item ∈ fs.walk (fun _ ↦ true) path root ∧ ∀ name ∈ item.names, qualifies name = true := by
  rw [walk_eq_filter, List.mem_filter, List.all_eq_true]

theorem exists_names_of_mem_below (h : item ∈ if qualifies name then items.map (·.below name) else []) :
    ∃ more, item.names = name :: more := by
  split at h
  · obtain ⟨found, -, rfl⟩ := List.mem_map.1 h
    exact ⟨found.names, Walked.names_below name found⟩
  · cases h

theorem exists_names_of_mem_walk (h : item ∈ fs.walk qualifies path root) :
    ∃ name more, item.names = name :: more ∧ name ∈ root.names := by
  induction root with
  | empty => cases h
  | leaf name found rest ih =>
    rcases List.mem_append.1 h with hfirst | hrest
    · obtain ⟨more, hnames⟩ := exists_names_of_mem_below hfirst
      exact ⟨name, more, hnames, List.mem_cons_self⟩
    · obtain ⟨first, more, hnames, hmem⟩ := ih hrest
      exact ⟨first, more, hnames, List.mem_cons_of_mem name hmem⟩
  | folder name inner rest _ ih =>
    rcases List.mem_append.1 h with hfirst | hrest
    · obtain ⟨more, hnames⟩ := exists_names_of_mem_below hfirst
      exact ⟨name, more, hnames, List.mem_cons_self⟩
    · obtain ⟨first, more, hnames, hmem⟩ := ih hrest
      exact ⟨first, more, hnames, List.mem_cons_of_mem name hmem⟩

theorem file_mem_iff {files : List (List Name × Bytes)} (h : items = files.map fun file ↦ .file file.1)
    {names : List Name} : .file names ∈ items ↔ ∃ file ∈ files, file.1 = names := by
  rw [h, List.mem_map]
  simp only [Walked.file.injEq]

def InOrder (items : List Walked) : Prop := items.Pairwise fun item later ↦ item.names < later.names

theorem InOrder.ifListed (h : InOrder below) (path : Pathname) : InOrder (fs.ifListed path below) := by
  unfold FileSystem.ifListed
  split
  · exact h
  · exact List.pairwise_singleton _ _

theorem inOrder_walkLeaf (path : Pathname) (found : Leaf) : InOrder (fs.walkLeaf path found) := by
  cases found with
  | file content => exact List.pairwise_singleton _ _
  | sink => exact .nil
  | locked isFolder =>
    cases isFolder
    · exact List.pairwise_singleton _ _
    · exact InOrder.ifListed .nil path

/-- Names that stand first decide, so the order of a directory becomes that of the walk. -/
theorem InOrder.append {rest : Directory} (hnames : ∀ n ∈ rest.names, name < n) (hitems : InOrder items)
    (hrest : InOrder (fs.walk qualifies path rest)) :
    InOrder ((if qualifies name then items.map (·.below name) else []) ++ fs.walk qualifies path rest) := by
  refine List.pairwise_append.2 ⟨?_, hrest, fun item hitem later hlater ↦ ?_⟩
  · split
    · refine List.pairwise_map.2 (hitems.imp fun hlt ↦ ?_)
      rw [Walked.names_below, Walked.names_below]
      exact List.cons_lt_cons_iff.2 (.inr ⟨rfl, hlt⟩)
    · exact .nil
  · obtain ⟨more, hitem⟩ := exists_names_of_mem_below hitem
    obtain ⟨first, others, hlater, hfirst⟩ := exists_names_of_mem_walk hlater
    rw [hitem, hlater]
    exact List.cons_lt_cons_iff.2 (.inl (hnames first hfirst))

theorem inOrder_walk (fs : FileSystem) (qualifies : Name → Bool) (h : root.Sorted) (path : Pathname) :
    InOrder (fs.walk qualifies path root) := by
  induction root generalizing path with
  | empty => exact .nil
  | leaf name found rest ih => exact .append h.1 (inOrder_walkLeaf _ found) (ih h.2 path)
  | folder name inner rest ihinner ihrest =>
    exact .append h.1 ((ihinner h.2.1 _).ifListed _) (ihrest h.2.2 path)

end FileSystem

end OntologyGuard
