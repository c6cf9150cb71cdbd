import OntologyGuard.Proofs.Data.Rebuilding
import OntologyGuard.Proofs.Storage.Walk
import OntologyGuard.Storage.StoredFile

namespace OntologyGuard

open FileSystem (pathTo)

namespace StoredFile

variable {fs : FileSystem} {path : Pathname} {root : Directory} {print : Fingerprint} {content : Bytes}

theorem isFolder_of_list (h : fs.list path = .ok root) : fs.isFolder path = true := by
  rw [FileSystem.isFolder, FileSystem.entry_of_list h]

theorem readFile_eq_ok_iff : readFile fs path = .ok content ↔ fs.read path = .ok content := by
  rw [readFile]
  cases fs.read path <;> simp

theorem visibleFiles_eq_ok_iff (h : fs.list path = .ok root) {names : List (List Name)} :
    visibleFiles fs path = .ok names ↔ fs.walk Fingerprint.isVisible path root = names.map .file := by
  rw [visibleFiles, h, ok_mapError, ok_bind, mapM_eq_ok_iff_map (g := .file) (p := fun _ ↦ True)]
  · simp
  · intro item names
    cases item <;> simp

/-- Every visible directory could be listed and every visible file read, at the paths that the walk makes. -/
theorem fingerprint_eq_ok_iff (h : fs.list path = .ok root) : fingerprint fs path = .ok print ↔
    ∃ files, print = .ofFiles files ∧
      fs.walk Fingerprint.isVisible path root = files.map (fun file ↦ .file file.1) ∧
      ∀ file ∈ files, fs.read (pathTo path file.1) = .ok file.2 := by
  have hread (names : List (List Name)) (files : List (List Name × Bytes)) :
      names.mapM (fun names ↦ (readFile fs (pathTo path names)).map fun content ↦ (names, content)) = .ok files ↔
        names = files.map Prod.fst ∧ ∀ file ∈ files, fs.read (pathTo path file.1) = .ok file.2 := by
    refine mapM_eq_ok_iff_map fun names file ↦ ?_
    rw [← readFile_eq_ok_iff]
    constructor
    · intro hmap
      obtain ⟨content, hcontent, rfl⟩ := map_eq_ok hmap
      exact ⟨rfl, hcontent⟩
    · rintro ⟨rfl, hcontent⟩
      rw [hcontent]
      rfl
  rw [fingerprint, if_pos (isFolder_of_list h)]
  constructor
  · intro hprint
    obtain ⟨names, hnames, hrest⟩ := bind_eq_ok hprint
    obtain ⟨files, hfiles, hend⟩ := bind_eq_ok hrest
    obtain ⟨rfl, hcontent⟩ := (hread names files).1 hfiles
    refine ⟨files, (Except.ok.inj hend).symm, ?_, hcontent⟩
    rw [(visibleFiles_eq_ok_iff h).1 hnames, List.map_map]
    rfl
  · rintro ⟨files, rfl, hwalk, hcontent⟩
    have hnames : visibleFiles fs path = .ok (files.map Prod.fst) :=
      (visibleFiles_eq_ok_iff h).2 (by rw [hwalk, List.map_map]; rfl)
    rw [hnames, ok_bind, (hread _ files).2 ⟨rfl, hcontent⟩]
    rfl

end StoredFile

namespace Fingerprint

variable {files : List (List Name × Bytes)}

/-- No two files share the text of their paths. -/
def TellApart (files : List (List Name × Bytes)) : Prop :=
  ∀ file ∈ files, ∀ other ∈ files, pathText file.1 = pathText other.1 → file.1 = other.1

theorem nodup_pathTexts (hordered : files.Pairwise fun file later ↦ file.1 < later.1) (h : TellApart files) :
    (files.map fun file ↦ pathText file.1).Nodup := by
  refine List.pairwise_map.2 (hordered.imp_of_mem fun hfile hlater hlt heq ↦ ?_)
  rw [h _ hfile _ hlater heq] at hlt
  exact List.lt_irrefl _ hlt

theorem mem_listing (hordered : files.Pairwise fun file later ↦ file.1 < later.1) (h : TellApart files)
    {entry : String × String} : entry ∈ (listing files).entries ↔
      ∃ file ∈ files, (pathText file.1, Sha256.hash file.2) = entry := by
  rw [listing, SortedMap.mem_ofList (by simpa [Function.comp_def] using nodup_pathTexts hordered h), List.mem_map]

theorem perm_listing (hordered : files.Pairwise fun file later ↦ file.1 < later.1) (h : TellApart files) :
    (listing files).entries.Perm (files.map fun file ↦ (pathText file.1, Sha256.hash file.2)) := by
  have hkeys : ((listing files).entries.map Prod.fst).Nodup := by
    refine (listing files).increasing.imp fun {a b} hlt heq ↦ ?_
    exact String.lt_irrefl b (heq ▸ hlt)
  have htexts : ((files.map fun file ↦ (pathText file.1, Sha256.hash file.2)).map Prod.fst).Nodup := by
    rw [List.map_map]
    exact nodup_pathTexts hordered h
  refine (List.perm_ext_iff_of_nodup (.of_map _ hkeys) (.of_map _ htexts)).2 fun entry ↦ ?_
  rw [mem_listing hordered h, List.mem_map]

end Fingerprint

end OntologyGuard
