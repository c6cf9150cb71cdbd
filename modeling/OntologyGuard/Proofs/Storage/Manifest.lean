import OntologyGuard.Proofs.Storage.Fingerprint
import OntologyGuard.Proofs.Text.Utf8

/-!
What the fingerprint of a directory stands for: the files below it that can be seen, each listed by its path
with the hash of its content, and all together in the order of their paths, name by name. Files with one text
for their paths share a place in the list, and a file whose path has become too long ends the walk.
-/

namespace OntologyGuard

open FileSystem (join pathTo pathLimit)

def Leaf.files : Leaf → List (List Name × Bytes)
  | .file content => [([], content)]
  | .sink | .locked _ => []

namespace Directory

/-- The files of a tree with the names that lead there, but for those that do not qualify. -/
def filesWith (qualifies : Name → Bool) : Directory → List (List Name × Bytes)
  | empty => []
  | leaf name found rest =>
    (if qualifies name then found.files.map fun file ↦ (name :: file.1, file.2) else [])
    ++ rest.filesWith qualifies
  | folder name inner rest =>
    (if qualifies name then (inner.filesWith qualifies).map fun file ↦ (name :: file.1, file.2) else [])
    ++ rest.filesWith qualifies

variable {qualifies : Name → Bool} {root rest inner : Directory} {name : Name} {names : List Name}
  {content : Bytes} {entry : Entry}

theorem names_cons (name : Name) (entry : Entry) (rest : Directory) :
    (cons name entry rest).names = name :: rest.names := by cases entry <;> rfl

theorem mem_names {n : Name} : n ∈ root.names ↔ root.entry? n ≠ none := by
  induction root using cons_induction with
  | empty => simp [Directory.names, entry?]
  | cons m e rest ih =>
    rw [names_cons, entry?_cons, List.mem_cons, ih]
    split <;> simp_all [eq_comm]

theorem entry?_eq_none (h : ∀ n ∈ rest.names, name < n) : rest.entry? name = none := by
  by_contra hsome
  exact List.lt_irrefl name (h name (mem_names.2 hsome))

theorem find?_cons_of_rest (h : ∀ n ∈ rest.names, name < n) (first : Entry) (hne : names ≠ [])
    (hfind : rest.find? names = some entry) : (cons name first rest).find? names = some entry := by
  obtain ⟨n, more, rfl⟩ := List.exists_cons_of_ne_nil hne
  rw [find?_cons] at hfind ⊢
  have hn : name ≠ n := by
    rintro rfl
    rw [entry?_eq_none h] at hfind
    cases hfind
  rw [entry?_cons, if_neg hn, hfind]

theorem find?_cons_self (name : Name) (first : Entry) (rest : Directory) (more : List Name) :
    (cons name first rest).find? (name :: more) = first.find? more := by
  rw [find?_cons, entry?_cons, if_pos rfl]
  rfl

theorem mem_filesWith_cons_iff {below : List (List Name × Bytes)} (first : Entry)
    (hnames : ∀ n ∈ rest.names, name < n)
    (hbelow : ∀ more, (more, content) ∈ below ↔
      first.find? more = some (.file content) ∧ ∀ n ∈ more, qualifies n = true)
    (hrest : ∀ names, (names, content) ∈ rest.filesWith qualifies ↔
      rest.find? names = some (.file content) ∧ ∀ n ∈ names, qualifies n = true)
    (names : List Name) :
    (names, content) ∈ (if qualifies name then below.map fun file ↦ (name :: file.1, file.2) else [])
        ++ rest.filesWith qualifies ↔
      (cons name first rest).find? names = some (.file content) ∧ ∀ n ∈ names, qualifies n = true := by
  rw [List.mem_append, hrest]
  cases names with
  | nil => split <;> simp [find?]
  | cons n more =>
    by_cases hn : name = n
    · subst hn
      rw [find?_cons_self, find?_cons, entry?_eq_none hnames]
      by_cases hname : qualifies name <;> simp [hname, hbelow]
    · rw [find?_cons, find?_cons, entry?_cons, if_neg hn]
      by_cases hname : qualifies name <;> simp [hname, hn]

theorem mem_filesWith_iff (h : root.Sorted) (names : List Name) : (names, content) ∈ root.filesWith qualifies ↔
    root.find? names = some (.file content) ∧ ∀ n ∈ names, qualifies n = true := by
  induction root generalizing names with
  | empty =>
    refine iff_of_false List.not_mem_nil fun ⟨hfind, _⟩ ↦ ?_
    cases names with
    | nil => cases hfind
    | cons n more => cases more <;> cases hfind
  | leaf name found rest ih =>
    refine mem_filesWith_cons_iff (.leaf found) h.1 (fun more ↦ ?_) (ih h.2) names
    cases found with
    | file octets =>
      cases more with
      | nil => simpa [Leaf.files, Entry.find?] using eq_comm
      | cons _ _ => simp [Leaf.files, Entry.find?]
    | sink => cases more <;> simp [Leaf.files, Entry.find?]
    | locked isFolder => cases more <;> simp [Leaf.files, Entry.find?]
  | folder name inner rest ihinner ihrest =>
    exact mem_filesWith_cons_iff (.folder inner) h.1 (ihinner h.2.1) (ihrest h.2.2) names

theorem ne_nil_of_find? {found : Leaf} (h : root.find? names = some (.leaf found)) : names ≠ [] := by
  rintro rfl
  cases h

/-- What a tree says of the entries that it lists, one after the other, is said of the one that is looked up. -/
theorem entry?_induction {p : Directory → Prop} {q : Name → Entry → Prop}
    (hcons : ∀ name entry rest, p (cons name entry rest) → q name entry ∧ p rest) (h : p root)
    (hentry : root.entry? name = some entry) : q name entry := by
  induction root using cons_induction with
  | empty => cases hentry
  | cons n first rest ih =>
    obtain ⟨hfirst, hrest⟩ := hcons n first rest h
    rw [entry?_cons] at hentry
    split at hentry
    · next hn =>
      obtain rfl := Option.some.inj hentry
      exact hn ▸ hfirst
    · exact ih hrest hentry

theorem AllNames.of_entry? (h : root.AllNames) (hentry : root.entry? name = some entry) :
    IsName name ∧ ∀ inner, entry = .folder inner → inner.AllNames := by
  refine entry?_induction (p := AllNames)
    (q := fun name entry ↦ IsName name ∧ ∀ inner, entry = .folder inner → inner.AllNames)
    (fun name entry rest h ↦ ?_) h hentry
  cases entry with
  | leaf found => exact ⟨⟨h.1, fun inner heq ↦ by cases heq⟩, h.2⟩
  | folder sub => exact ⟨⟨h.1, fun inner heq ↦ Entry.folder.inj heq ▸ h.2.1⟩, h.2.2⟩

theorem AllNames.of_find? (h : root.AllNames) (hfind : root.find? names = some entry) :
    ∀ name ∈ names, IsName name := by
  induction names generalizing root with
  | nil => simp
  | cons name more ih =>
    rw [find?_cons] at hfind
    obtain ⟨found, hfound, hmore⟩ := Option.bind_eq_some_iff.1 hfind
    obtain ⟨hname, hbelow⟩ := h.of_entry? hfound
    refine List.forall_mem_cons.2 ⟨hname, ?_⟩
    cases found with
    | folder inner => exact ih (hbelow inner rfl) hmore
    | leaf found =>
      cases more with
      | nil => simp
      | cons _ _ => cases hmore

/-- What is visible below a path may be read, and can be reached by a path that goes on from there. -/
def Readable (path : Pathname) : Directory → Prop
  | empty => True
  | leaf name found rest =>
    (name.head? ≠ some dot → (join path name).length < pathLimit ∧ ∀ isFolder, found ≠ .locked isFolder)
    ∧ rest.Readable path
  | folder name inner rest =>
    (name.head? ≠ some dot → (join path name).length < pathLimit ∧ inner.Readable (join path name))
    ∧ rest.Readable path

theorem Readable.of_entry? {path : Pathname} (h : root.Readable path) (hname : name.head? ≠ some dot)
    (hentry : root.entry? name = some entry) :
    (join path name).length < pathLimit ∧ (∀ isFolder, entry ≠ .locked isFolder) ∧
      ∀ inner, entry = .folder inner → inner.Readable (join path name) := by
  refine entry?_induction (p := Readable path)
    (q := fun name entry ↦ name.head? ≠ some dot → (join path name).length < pathLimit ∧
      (∀ isFolder, entry ≠ .locked isFolder) ∧ ∀ inner, entry = .folder inner → inner.Readable (join path name))
    (fun name entry rest h ↦ ?_) h hentry hname
  cases entry with
  | leaf found =>
    refine ⟨fun hname ↦ ⟨(h.1 hname).1, fun isFolder heq ↦ ?_, fun inner heq ↦ by cases heq⟩, h.2⟩
    exact (h.1 hname).2 isFolder (Entry.leaf.inj heq)
  | folder sub =>
    refine ⟨fun hname ↦ ⟨(h.1 hname).1, fun isFolder heq ↦ ?_, fun inner heq ↦ ?_⟩, h.2⟩
    · cases heq
    · exact Entry.folder.inj heq ▸ (h.1 hname).2

theorem Readable.of_find? {path : Pathname} (h : root.Readable path) (hne : names ≠ [])
    (hnames : ∀ name ∈ names, name.head? ≠ some dot) (hfind : root.find? names = some entry) :
    (pathTo path names).length < pathLimit ∧ ∀ isFolder, entry ≠ .locked isFolder := by
  induction names generalizing root path with
  | nil => exact absurd rfl hne
  | cons name more ih =>
    obtain ⟨hname, hmore⟩ := List.forall_mem_cons.1 hnames
    rw [find?_cons] at hfind
    obtain ⟨found, hfound, hrest⟩ := Option.bind_eq_some_iff.1 hfind
    obtain ⟨hlength, hunlocked, hbelow⟩ := h.of_entry? hname hfound
    cases more with
    | nil =>
      refine ⟨hlength, ?_⟩
      cases found <;> obtain rfl := Option.some.inj hrest <;> exact hunlocked
    | cons next others =>
      cases found with
      | folder inner => exact ih (hbelow inner rfl) (by simp) hmore hrest
      | leaf found => cases hrest

end Directory

namespace FileSystem

variable {fs : FileSystem} {qualifies : Name → Bool} {path : Pathname} {root rest inner : Directory} {name : Name}
  {first : Entry}

/-- Nothing is in the way of a walk: directories can be listed at the paths that it makes, and nothing is locked. -/
structure Passable (fs : FileSystem) (qualifies : Name → Bool) (path : Pathname) (root : Directory) : Prop where
  listed : ∀ names inner, names ≠ [] → (∀ name ∈ names, qualifies name = true) →
    root.find? names = some (.folder inner) → ∃ found, fs.list (pathTo path names) = .ok found
  unlocked : ∀ names isFolder, (∀ name ∈ names, qualifies name = true) → root.find? names ≠ some (.locked isFolder)

theorem Passable.of_cons (first : Entry) (h : Passable fs qualifies path (.cons name first rest))
    (hnames : ∀ n ∈ rest.names, name < n) : Passable fs qualifies path rest where
  listed names inner hne hqualifies hfind :=
    h.listed names inner hne hqualifies (Directory.find?_cons_of_rest hnames first hne hfind)
  unlocked names isFolder hqualifies hfind :=
    h.unlocked names isFolder hqualifies
      (Directory.find?_cons_of_rest hnames first (Directory.ne_nil_of_find? hfind) hfind)

theorem Passable.of_folder (h : Passable fs qualifies path (.folder name inner rest))
    (hname : qualifies name = true) : Passable fs qualifies (join path name) inner where
  listed names sub _ hqualifies hfind :=
    h.listed (name :: names) sub (by simp) (List.forall_mem_cons.2 ⟨hname, hqualifies⟩)
      ((Directory.find?_cons_self name (.folder inner) rest names).trans hfind)
  unlocked names isFolder hqualifies hfind :=
    h.unlocked (name :: names) isFolder (List.forall_mem_cons.2 ⟨hname, hqualifies⟩)
      ((Directory.find?_cons_self name (.folder inner) rest names).trans hfind)

/-- Such a walk comes to all files. -/
theorem walk_eq_map (hsorted : root.Sorted) (h : Passable fs qualifies path root) :
    fs.walk qualifies path root = (root.filesWith qualifies).map fun file ↦ .file file.1 := by
  induction root generalizing path with
  | empty => rfl
  | leaf name found rest ih =>
    rw [walk, Directory.filesWith, List.map_append, ih hsorted.2 (Passable.of_cons (.leaf found) h hsorted.1)]
    congr 1
    split
    · next hname =>
      cases found with
      | file content => rfl
      | sink => rfl
      | locked isFolder =>
        refine absurd ?_ (h.unlocked [name] isFolder (by simpa using hname))
        exact Directory.find?_cons_self name (.locked isFolder) rest []
    · rfl
  | folder name inner rest ihinner ihrest =>
    rw [walk, Directory.filesWith, List.map_append, ihrest hsorted.2.2 (Passable.of_cons (.folder inner) h hsorted.1)]
    congr 1
    split
    · next hname =>
      obtain ⟨found, hfound⟩ := h.listed [name] inner (by simp) (by simpa using hname)
        (Directory.find?_cons_self name (.folder inner) rest [])
      have hfound : fs.list (join path name) = .ok found := hfound
      rw [ifListed, hfound]
      dsimp only
      rw [ihinner hsorted.2.1 (h.of_folder hname), List.map_map, List.map_map]
      rfl
    · rfl

end FileSystem

namespace Fingerprint

variable {fs : FileSystem} {path : Pathname} {root : Directory} {files : List (List Name × Bytes)}

theorem isVisible_iff {name : Name} : isVisible name = true ↔ name.head? ≠ some dot := by
  rw [isVisible, decide_eq_true_iff, not_iff_not]
  exact Text.head?_lossy_eq_dot

theorem tellApart_of_texts (hne : ∀ file ∈ files, file.1 ≠ []) (hnames : ∀ file ∈ files, ∀ name ∈ file.1, IsName name)
    (htexts : ∀ file ∈ files, ∃ text, pathTo [] file.1 = Text.utf8 text) : TellApart files := by
  intro file hfile other hother heq
  obtain ⟨text, htext⟩ := htexts file hfile
  obtain ⟨text', htext'⟩ := htexts other hother
  rw [pathText, pathText, htext, htext', Text.lossy_utf8, Text.lossy_utf8] at heq
  rw [← FileSystem.components_pathTo_nil (hne file hfile) (hnames file hfile), htext, heq, ← htext',
    FileSystem.components_pathTo_nil (hne other hother) (hnames other hother)]

theorem passable_of_list (h : fs.list path = .ok root) (hroot : root.WellFormed) (hreadable : root.Readable path) :
    FileSystem.Passable fs isVisible path root where
  listed names inner hne hvisible hfind := by
    have hnames := hroot.names.of_find? hfind
    obtain ⟨hlength, -⟩ := hreadable.of_find? hne (fun name hname ↦ isVisible_iff.1 (hvisible name hname)) hfind
    have hentry := FileSystem.entry_pathTo (FileSystem.entry_of_list h) hnames hfind hlength
    exact ⟨inner, FileSystem.list_of_entry hentry⟩
  unlocked names isFolder hvisible hfind := by
    have hne := Directory.ne_nil_of_find? hfind
    obtain ⟨-, hunlocked⟩ := hreadable.of_find? hne (fun name hname ↦ isVisible_iff.1 (hvisible name hname)) hfind
    exact hunlocked isFolder rfl

/-- The fingerprint of a directory covers the files below it on whose paths no name begins with a dot, and no
others. The hash of the whole goes through them in the order in which their paths compare name by name, and the
manifest lists each of them as long as no two share the text of their paths. Paths that are texts never do. -/
theorem fingerprint_of_folder (h : fs.list path = .ok root) (hroot : root.WellFormed)
    (hreadable : root.Readable path) :
    ∃ (files : List (List Name × Bytes)) (manifest : SortedMap String),
      StoredFile.fingerprint fs path =
        .ok { hash := Sha256.hash (files.flatMap Prod.snd), manifest := some manifest } ∧
      (∀ names content, (names, content) ∈ files ↔ root.find? names = some (.file content) ∧
        ∀ name ∈ names, name.head? ≠ some dot) ∧
      files.Pairwise (fun file later ↦ file.1 < later.1) ∧
      (TellApart files →
        manifest.entries.Perm (files.map fun file ↦ (pathText file.1, Sha256.hash file.2))) ∧
      ((∀ file ∈ files, ∃ text, pathTo [] file.1 = Text.utf8 text) → TellApart files) := by
  have hwalk := FileSystem.walk_eq_map hroot.sorted (passable_of_list h hroot hreadable)
  have hmem (names : List Name) (content : Bytes) : (names, content) ∈ root.filesWith isVisible ↔
      root.find? names = some (.file content) ∧ ∀ name ∈ names, name.head? ≠ some dot := by
    simp only [Directory.mem_filesWith_iff hroot.sorted, isVisible_iff]
  have hordered : (root.filesWith isVisible).Pairwise fun file later ↦ file.1 < later.1 := by
    have hitems := FileSystem.inOrder_walk fs isVisible hroot.sorted path
    rwa [hwalk, FileSystem.InOrder, List.pairwise_map] at hitems
  have hne (file : List Name × Bytes) (hfile : file ∈ root.filesWith isVisible) : file.1 ≠ [] :=
    Directory.ne_nil_of_find? ((hmem file.1 file.2).1 hfile).1
  have hnames (file : List Name × Bytes) (hfile : file ∈ root.filesWith isVisible) : ∀ name ∈ file.1, IsName name :=
    hroot.names.of_find? ((hmem file.1 file.2).1 hfile).1
  have hread (file : List Name × Bytes) (hfile : file ∈ root.filesWith isVisible) :
      fs.read (pathTo path file.1) = .ok file.2 := by
    obtain ⟨hfind, hvisible⟩ := (hmem file.1 file.2).1 hfile
    obtain ⟨hlength, -⟩ := hreadable.of_find? (hne file hfile) hvisible hfind
    exact FileSystem.read_of_entry
      (FileSystem.entry_pathTo (FileSystem.entry_of_list h) (hnames file hfile) hfind hlength)
  exact ⟨root.filesWith isVisible, listing (root.filesWith isVisible),
    (StoredFile.fingerprint_eq_ok_iff h).2 ⟨_, rfl, hwalk, hread⟩, hmem, hordered, perm_listing hordered,
    tellApart_of_texts hne hnames⟩

/-- Hidden names on two levels, and two paths that compare the other way round as texts: a point comes before
a slash. -/
def projectTree : Directory :=
  .folder ".git" (.file "config" [1] .empty) <|
    .folder "a" (.file ".draft" [2] (.file "x" [3] .empty)) <| .file "a.txt" [4] .empty

def hiddenProject : FileSystem := { root := .folder ".project" projectTree .empty }

theorem fingerprint_of_folder_hiddenProject :
    hiddenProject.list ".project" = .ok projectTree ∧ projectTree.WellFormed ∧ projectTree.Readable ".project" ∧
    ∃ (files : List (List Name × Bytes)) (manifest : SortedMap String),
      StoredFile.fingerprint hiddenProject ".project" =
        .ok { hash := Sha256.hash (files.flatMap Prod.snd), manifest := some manifest } ∧
      ([Text.utf8 "a", Text.utf8 "x"], [3]) ∈ files ∧ ([Text.utf8 "a.txt"], [4]) ∈ files ∧
      (∀ content, ([Text.utf8 ".git", Text.utf8 "config"], content) ∉ files ∧
        ([Text.utf8 "a", Text.utf8 ".draft"], content) ∉ files) ∧
      files.Pairwise (fun file later ↦ file.1 < later.1) ∧
      manifest.entries.Perm (files.map fun file ↦ (pathText file.1, Sha256.hash file.2)) := by
  have hlist : hiddenProject.list ".project" = .ok projectTree := by decide +kernel
  have hwellFormed : projectTree.WellFormed := by decide +kernel
  have hreadable : projectTree.Readable ".project" := by
    simp only [projectTree, Directory.Readable, ne_eq, reduceCtorEq, not_false_eq_true,
      implies_true, and_true]
    decide
  obtain ⟨files, manifest, hprint, hfiles, hordered, hmanifest, htexts⟩ :=
    fingerprint_of_folder hlist hwellFormed hreadable
  have hall : projectTree.filesWith isVisible =
      [([Text.utf8 "a", Text.utf8 "x"], [3]), ([Text.utf8 "a.txt"], [4])] := by decide +kernel
  have hapart : TellApart files := htexts fun file hfile ↦ by
    have hmem : file ∈ projectTree.filesWith isVisible :=
      (Directory.mem_filesWith_iff hwellFormed.sorted file.1).2
        (by simpa only [isVisible_iff] using (hfiles file.1 file.2).1 hfile)
    rw [hall, List.mem_pair] at hmem
    obtain rfl | rfl := hmem
    · exact ⟨"a/x", by decide⟩
    · exact ⟨"a.txt", by decide⟩
  refine ⟨hlist, hwellFormed, hreadable, files, manifest, hprint, ?_, ?_, ?_, hordered, hmanifest hapart⟩
  · exact (hfiles _ _).2 ⟨by decide, by decide⟩
  · exact (hfiles _ _).2 ⟨by decide, by decide⟩
  · intro content
    exact ⟨fun h ↦ ((hfiles _ _).1 h).2 (Text.utf8 ".git") (by simp) (by decide),
      fun h ↦ ((hfiles _ _).1 h).2 (Text.utf8 ".draft") (by simp) (by decide)⟩

def twinTree : Directory := .file [0xFE] [1] <| .file [0xFF] [2] .empty

def twinProject : FileSystem := { root := .folder "d" twinTree .empty }

/-- The two files share a place in the manifest. By a path with so many slashes at its end that one more name
makes it too long, the same directory can be listed, and has no fingerprint. -/
theorem fingerprint_twinProject :
    twinTree.WellFormed ∧ twinProject.list "d" = .ok twinTree ∧
    twinProject.list (Text.utf8 "d" ++ List.replicate 4094 slash) = .ok twinTree ∧
    (∃ manifest,
      StoredFile.fingerprint twinProject "d" = .ok { hash := Sha256.hash [1, 2], manifest := some manifest } ∧
      manifest.entries = [("\uFFFD", Sha256.hash [2])]) ∧
    ∀ print, StoredFile.fingerprint twinProject (Text.utf8 "d" ++ List.replicate 4094 slash) ≠ .ok print := by
  have hwellFormed : twinTree.WellFormed := by decide +kernel
  have hlist : twinProject.list "d" = .ok twinTree := by decide +kernel
  have hlong := FileSystem.list_append_slashes hlist 4094 (by decide)
  have hmanifest : (listing [([[0xFE]], [1]), ([[0xFF]], [2])]).entries = [("\uFFFD", Sha256.hash [2])] := by
    decide +kernel
  have hprint : StoredFile.fingerprint twinProject "d" = .ok (.ofFiles [([[0xFE]], [1]), ([[0xFF]], [2])]) :=
    (StoredFile.fingerprint_eq_ok_iff hlist).2 ⟨_, rfl, by decide +kernel, by decide +kernel⟩
  refine ⟨hwellFormed, hlist, hlong, ⟨_, hprint, hmanifest⟩, fun print hprint ↦ ?_⟩
  obtain ⟨files, -, hwalk, hread⟩ := (StoredFile.fingerprint_eq_ok_iff hlong).1 hprint
  have hfirst : FileSystem.Walked.file [[0xFE]] ∈
      twinProject.walk isVisible (Text.utf8 "d" ++ List.replicate 4094 slash) twinTree := List.mem_cons_self
  obtain ⟨file, hfile, hnames⟩ := (FileSystem.file_mem_iff hwalk).1 hfirst
  have hlength := FileSystem.length_of_read (hread file hfile)
  rw [hnames, pathTo, List.foldl_cons, List.foldl_nil] at hlength
  have hjoin := FileSystem.length_join_le (Text.utf8 "d" ++ List.replicate 4094 slash) [0xFE]
  have hdirectory : (Text.utf8 "d" ++ List.replicate 4094 slash).length = 4095 := by
    rw [List.length_append, List.length_replicate]
    rfl
  rw [hdirectory] at hjoin
  exact absurd (Nat.lt_of_le_of_lt hjoin hlength) (by decide)

end Fingerprint

end OntologyGuard
