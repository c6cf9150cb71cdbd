import OntologyGuard.Command.Source
import OntologyGuard.Proofs.Storage.Manifest

/-!
How far the fingerprint of a directory covers the documents that are read from it. Hashing passes over hidden
names and reading does not.
-/

namespace OntologyGuard

open FileSystem (pathTo)
open Fingerprint (isVisible pathText)
open Source (isDocumentName isSought nameOf)

def OntologyDocument.ofBytes? (content : Bytes) : Option OntologyDocument :=
  (Text.ofUtf8? content).bind fun text ↦ (Json.parse? text).bind ofJson?

/-- A directory that was hashed, and whose documents were read. -/
structure Snapshot where
  fs : FileSystem
  path : Pathname
  root : Directory
  print : Fingerprint
  document : OntologyDocument
  listed : fs.list path = .ok root
  sorted : root.Sorted
  hashed : StoredFile.fingerprint fs path = .ok print
  loaded : Source.loadDirectory fs path = .ok document

namespace Snapshot

variable {a b s : Snapshot} {names : List Name} {content : Bytes} {files : List (List Name × Bytes)}

def Has (s : Snapshot) (names : List Name) : Prop :=
  .file names ∈ s.fs.walk (fun _ ↦ true) s.path s.root

/-- A document is read from a file. -/
def Reads (s : Snapshot) (names : List Name) (content : Bytes) : Prop :=
  s.Has names ∧ isDocumentName (nameOf names) = true ∧ s.fs.read (pathTo s.path names) = .ok content

/-- Each document that is read is listed by its path with the hash of its content. -/
def Covered (s : Snapshot) : Prop :=
  ∃ manifest, s.print.manifest = some manifest ∧
    ∀ names content, s.Reads names content → (pathText names, Sha256.hash content) ∈ manifest.entries

/-- The text of a path says which file it is, here and there. -/
def TellsApart (a b : Snapshot) : Prop :=
  ∀ names others, a.Has names → b.Has others → pathText names = pathText others → names = others

/-- No two documents at one path have different content with the same hash. -/
def CollisionFree (a b : Snapshot) : Prop :=
  ∀ names x y, a.Reads names x → b.Reads names y → Sha256.hash x = Sha256.hash y → x = y

theorem loadDocument_eq_ok {fs : FileSystem} {path : Pathname} {document : OntologyDocument}
    (h : Source.load OntologyDocument.ofJson? fs path = .ok document) :
    ∃ content, fs.read path = .ok content ∧ OntologyDocument.ofBytes? content = some document := by
  unfold Source.load at h
  split at h
  · next content hread =>
    refine ⟨content, hread, ?_⟩
    unfold Source.decodeBytes at h
    split at h
    · next text htext =>
      unfold Source.decode at h
      split at h
      · next found hfound =>
        obtain rfl := Except.ok.inj h
        rw [OntologyDocument.ofBytes?, htext]
        exact hfound
      · cases h
    · cases h
  · cases h

theorem exists_files_of_forall₂ {fs : FileSystem} {path : Pathname} {items : List FileSystem.Walked}
    {documents : List OntologyDocument}
    (h : List.Forall₂ (fun item document ↦ ∃ names content, item = .file names ∧
      fs.read (pathTo path names) = .ok content ∧ OntologyDocument.ofBytes? content = some document) items documents) :
    ∃ files : List (List Name × Bytes), items = files.map (fun file ↦ .file file.1) ∧
      (∀ file ∈ files, fs.read (pathTo path file.1) = .ok file.2) ∧
      files.map (fun file ↦ OntologyDocument.ofBytes? file.2) = documents.map some := by
  induction h with
  | nil => exact ⟨[], rfl, by simp, rfl⟩
  | cons hfirst _ ih =>
    obtain ⟨names, content, rfl, hread, hdocument⟩ := hfirst
    obtain ⟨files, rfl, hreads, hdocuments⟩ := ih
    exact ⟨(names, content) :: files, rfl, List.forall_mem_cons.2 ⟨hread, hreads⟩,
      by rw [List.map_cons, hdocument, hdocuments, List.map_cons]⟩

theorem exists_documents (s : Snapshot) : ∃ (files : List (List Name × Bytes)) (documents : List OntologyDocument),
    (s.fs.walk (fun _ ↦ true) s.path s.root).filter isSought = files.map (fun file ↦ .file file.1) ∧
    (∀ file ∈ files, s.fs.read (pathTo s.path file.1) = .ok file.2) ∧
    files.map (fun file ↦ OntologyDocument.ofBytes? file.2) = documents.map some ∧
    s.document = .merge documents := by
  have h := s.loaded
  rw [Source.loadDirectory, s.listed, ok_mapError, ok_bind] at h
  obtain ⟨documents, hdocuments, h⟩ := bind_eq_ok h
  obtain ⟨files, hwalk, hread, hmap⟩ := exists_files_of_forall₂ <|
    (mapM_eq_ok_iff.1 hdocuments).imp fun item document hload ↦ by
      cases item with
      | file names =>
        obtain ⟨content, hcontent, hdocument⟩ := loadDocument_eq_ok hload
        exact ⟨names, content, rfl, hcontent, hdocument⟩
      | unlisted names cause => cases hload
  exact ⟨files, documents, hwalk, hread, hmap, (Except.ok.inj h).symm⟩

theorem mem_documents_iff
    (hwalk : (s.fs.walk (fun _ ↦ true) s.path s.root).filter isSought = files.map (fun file ↦ .file file.1))
    (hread : ∀ file ∈ files, s.fs.read (pathTo s.path file.1) = .ok file.2) :
    (names, content) ∈ files ↔ s.Reads names content := by
  have hsought : (∃ file ∈ files, file.1 = names) ↔ s.Has names ∧ isDocumentName (nameOf names) = true := by
    rw [← FileSystem.file_mem_iff hwalk]
    exact List.mem_filter
  constructor
  · intro hfile
    obtain ⟨hhas, hname⟩ := hsought.1 ⟨_, hfile, rfl⟩
    exact ⟨hhas, hname, hread _ hfile⟩
  · intro ⟨hhas, hname, hcontent⟩
    obtain ⟨⟨_, found⟩, hfile, rfl⟩ := hsought.2 ⟨hhas, hname⟩
    obtain rfl : found = content := Except.ok.inj ((hread _ hfile).symm.trans hcontent)
    exact hfile

theorem pairwise_files {qualifies : Name → Bool} {items : List FileSystem.Walked}
    (h : items.Sublist (s.fs.walk qualifies s.path s.root)) (hitems : items = files.map (fun file ↦ .file file.1)) :
    files.Pairwise fun file later ↦ file.1 < later.1 := by
  have hordered := (FileSystem.inOrder_walk s.fs qualifies s.sorted s.path).sublist h
  rwa [hitems, List.pairwise_map] at hordered

theorem mem_manifest_iff (hapart : s.TellsApart s) {manifest : SortedMap String}
    (hmanifest : s.print.manifest = some manifest) {text hash : String} : (text, hash) ∈ manifest.entries ↔
      ∃ names content, s.Has names ∧ (∀ name ∈ names, isVisible name = true) ∧
        s.fs.read (pathTo s.path names) = .ok content ∧ pathText names = text ∧ Sha256.hash content = hash := by
  obtain ⟨files, hprint, hwalk, hread⟩ := (StoredFile.fingerprint_eq_ok_iff s.listed).1 s.hashed
  have hvisible (names : List Name) : (∃ file ∈ files, file.1 = names) ↔
      s.Has names ∧ ∀ name ∈ names, isVisible name = true := by
    rw [← FileSystem.file_mem_iff hwalk]
    exact FileSystem.mem_walk_iff
  have hfiles : Fingerprint.TellApart files := by
    intro file hfile other hother
    exact hapart _ _ ((hvisible _).1 ⟨file, hfile, rfl⟩).1 ((hvisible _).1 ⟨other, hother, rfl⟩).1
  rw [hprint] at hmanifest
  obtain rfl := Option.some.inj hmanifest
  rw [Fingerprint.mem_listing (pairwise_files (.refl _) hwalk) hfiles]
  constructor
  · intro ⟨file, hfile, heq⟩
    obtain ⟨htext, hhash⟩ := Prod.mk.inj heq
    obtain ⟨hhas, hall⟩ := (hvisible _).1 ⟨file, hfile, rfl⟩
    exact ⟨file.1, file.2, hhas, hall, hread file hfile, htext, hhash⟩
  · intro ⟨names, content, hhas, hall, hcontent, htext, hhash⟩
    obtain ⟨⟨_, found⟩, hfile, rfl⟩ := (hvisible names).2 ⟨hhas, hall⟩
    obtain rfl : found = content := Except.ok.inj ((hread _ hfile).symm.trans hcontent)
    exact ⟨_, hfile, by rw [htext, hhash]⟩

theorem exists_manifest (s : Snapshot) : ∃ manifest, s.print.manifest = some manifest := by
  obtain ⟨files, hprint, -⟩ := (StoredFile.fingerprint_eq_ok_iff s.listed).1 s.hashed
  exact ⟨_, by rw [hprint]; rfl⟩

theorem covered_iff (hapart : s.TellsApart s) : s.Covered ↔
    ∀ names content, s.Reads names content → ∀ name ∈ names, name.head? ≠ some dot := by
  simp only [← Fingerprint.isVisible_iff]
  constructor
  · intro ⟨manifest, hmanifest, hcovered⟩ names content hreads
    obtain ⟨others, _, hhas, hvisible, -, htext, -⟩ :=
      (mem_manifest_iff hapart hmanifest).1 (hcovered names content hreads)
    rwa [← hapart others names hhas hreads.1 htext]
  · intro hvisible
    obtain ⟨manifest, hmanifest⟩ := s.exists_manifest
    refine ⟨manifest, hmanifest, fun names content hreads ↦ ?_⟩
    exact (mem_manifest_iff hapart hmanifest).2
      ⟨names, content, hreads.1, hvisible names content hreads, hreads.2.2, rfl, rfl⟩

theorem reads_of_reads (hb : b.TellsApart b) (hab : a.TellsApart b) (hcovered : a.Covered)
    (hmanifest : a.print.manifest = b.print.manifest) (hfree : a.CollisionFree b) (h : a.Reads names content) :
    b.Reads names content := by
  obtain ⟨manifest, hlisting, hcovers⟩ := hcovered
  obtain ⟨others, found, hhas, -, hfound, htext, hhash⟩ :=
    (mem_manifest_iff hb (hmanifest ▸ hlisting)).1 (hcovers names content h)
  obtain rfl := hab names others h.1 hhas htext.symm
  have hreads : b.Reads names found := ⟨hhas, h.2.1, hfound⟩
  rwa [hfree names content found h hreads hhash.symm]

theorem TellsApart.symm (h : a.TellsApart b) : b.TellsApart a :=
  fun names others hb ha heq ↦ (h others names ha hb heq.symm).symm

theorem CollisionFree.symm (h : a.CollisionFree b) : b.CollisionFree a :=
  fun names x y hx hy heq ↦ (h names y x hy hx heq.symm).symm

theorem document_eq (h : ∀ names content, a.Reads names content ↔ b.Reads names content) :
    a.document = b.document := by
  obtain ⟨files, documents, hwalk, hread, hdocuments, hdocument⟩ := a.exists_documents
  obtain ⟨files', documents', hwalk', hread', hdocuments', hdocument'⟩ := b.exists_documents
  have hirrefl : Std.Irrefl fun file later : List Name × Bytes ↦ file.1 < later.1 :=
    ⟨fun file ↦ List.lt_irrefl file.1⟩
  have hantisymm : Std.Antisymm fun file later : List Name × Bytes ↦ file.1 < later.1 :=
    ⟨fun _ _ hlt hgt ↦ absurd hgt (List.lt_asymm hlt)⟩
  have hfiles : files = files' :=
    (pairwise_files List.filter_sublist hwalk).eq_of_mem_iff (pairwise_files List.filter_sublist hwalk')
      fun ⟨names, content⟩ ↦ by rw [mem_documents_iff hwalk hread, mem_documents_iff hwalk' hread', h]
  have hsame : documents.map some = documents'.map some := by rw [← hdocuments, ← hdocuments', hfiles]
  rw [hdocument, hdocument', List.map_injective_iff.2 (Option.some_injective _) hsame]

/-- What is merged are the documents in the files that are read, by increasing paths. The manifest covers them
exactly when no name on the way to any of them is hidden, and then it determines what they are merged into. -/
theorem covers_manifest_iff (a b : Snapshot) (ha : a.TellsApart a) (hb : b.TellsApart b) (hab : a.TellsApart b) :
    (∃ (files : List (List Name × Bytes)) (documents : List OntologyDocument), a.document = .merge documents ∧
      files.map (fun file ↦ OntologyDocument.ofBytes? file.2) = documents.map some ∧
      (∀ names content, (names, content) ∈ files ↔ a.Reads names content) ∧
      files.Pairwise fun file later ↦ file.1 < later.1) ∧
    (a.Covered ↔ ∀ names content, a.Reads names content → ∀ name ∈ names, name.head? ≠ some dot) ∧
    (a.print.manifest = b.print.manifest → a.Covered → b.Covered → a.CollisionFree b →
      a.document = b.document) := by
  refine ⟨?_, covered_iff ha, fun hmanifest hcovered hcovered' hfree ↦ document_eq fun names content ↦ ⟨?_, ?_⟩⟩
  · obtain ⟨files, documents, hwalk, hread, hdocuments, hdocument⟩ := a.exists_documents
    exact ⟨files, documents, hdocument, hdocuments, fun _ _ ↦ mem_documents_iff hwalk hread,
      pairwise_files List.filter_sublist hwalk⟩
  · exact reads_of_reads hb hab hcovered hmanifest hfree
  · exact reads_of_reads ha hab.symm hcovered' hmanifest.symm hfree.symm

/-- A document that describes one class. -/
def classContent : Bytes := Text.utf8 "\x7b\"classes\":[\x7b\"iri\":\"C\"\x7d]\x7d"

def noteFiles : FileSystem where
  root :=
    .folder "bare" .empty <|
    .folder "hidden" (.file ".c.json" classContent .empty) <|
    .folder "noted" (.file ".note" [] (.file "c.json" classContent .empty)) <|
    .folder "plain" (.file "c.json" classContent .empty) .empty

/-- A directory of which it is known what the walk through it comes to. -/
def ofFiles (fs : FileSystem) (path : Pathname) (root : Directory) (files : List (List Name × Bytes))
    (document : OntologyDocument) (listed : fs.list path = .ok root) (sorted : root.Sorted)
    (walk : fs.walk isVisible path root = files.map fun file ↦ .file file.1)
    (read : ∀ file ∈ files, fs.read (pathTo path file.1) = .ok file.2)
    (loaded : Source.loadDirectory fs path = .ok document) : Snapshot where
  fs := fs
  path := path
  root := root
  print := .ofFiles files
  document := document
  listed := listed
  sorted := sorted
  hashed := (StoredFile.fingerprint_eq_ok_iff listed).2 ⟨files, rfl, walk, read⟩
  loaded := loaded

def noted : Snapshot :=
  ofFiles noteFiles "noted" (.file ".note" [] (.file "c.json" classContent .empty))
    [([Text.utf8 "c.json"], classContent)] { classes := [{ iri := "C" }] } (by decide +kernel) (by decide +kernel)
    (by decide +kernel) (by decide +kernel) (by decide +kernel)

def plain : Snapshot :=
  ofFiles noteFiles "plain" (.file "c.json" classContent .empty) [([Text.utf8 "c.json"], classContent)]
    { classes := [{ iri := "C" }] } (by decide +kernel) (by decide +kernel) (by decide +kernel) (by decide +kernel)
    (by decide +kernel)

theorem has_noted_iff : noted.Has names ↔ names = [Text.utf8 ".note"] ∨ names = [Text.utf8 "c.json"] := by
  have hwalk : noted.fs.walk (fun _ ↦ true) noted.path noted.root =
      [.file [Text.utf8 ".note"], .file [Text.utf8 "c.json"]] := by decide +kernel
  rw [Has, hwalk, List.mem_pair, FileSystem.Walked.file.injEq, FileSystem.Walked.file.injEq]

theorem has_plain_iff : plain.Has names ↔ names = [Text.utf8 "c.json"] := by
  have hwalk : plain.fs.walk (fun _ ↦ true) plain.path plain.root = [.file [Text.utf8 "c.json"]] := by decide +kernel
  rw [Has, hwalk, List.mem_singleton, FileSystem.Walked.file.injEq]

theorem covers_manifest_note :
    noted.TellsApart noted ∧ plain.TellsApart plain ∧ noted.TellsApart plain ∧ noted.Covered ∧ plain.Covered ∧
    noted.print.manifest = plain.print.manifest ∧ noted.CollisionFree plain ∧
    noted.document = plain.document ∧ plain.document = { classes := [{ iri := "C" }] } := by
  have hnoted : noted.TellsApart noted := by
    intro names others hnames hothers htext
    rw [has_noted_iff] at hnames hothers
    obtain rfl | rfl := hnames <;> obtain rfl | rfl := hothers
    · rfl
    · exact absurd htext (by decide +kernel)
    · exact absurd htext (by decide +kernel)
    · rfl
  have hplain : plain.TellsApart plain := by
    intro names others hnames hothers _
    rw [has_plain_iff.1 hnames, has_plain_iff.1 hothers]
  have hboth : noted.TellsApart plain := by
    intro names others hnames hothers htext
    rw [has_noted_iff] at hnames
    obtain rfl := has_plain_iff.1 hothers
    obtain rfl | rfl := hnames
    · exact absurd htext (by decide +kernel)
    · rfl
  have hfree : noted.CollisionFree plain := by
    intro names x y hx hy _
    obtain rfl := has_plain_iff.1 hy.1
    have hx' : noted.fs.read (pathTo noted.path [Text.utf8 "c.json"]) = .ok classContent := by decide +kernel
    have hy' : plain.fs.read (pathTo plain.path [Text.utf8 "c.json"]) = .ok classContent := by decide +kernel
    obtain rfl : x = classContent := Except.ok.inj (hx.2.2.symm.trans hx')
    exact Except.ok.inj (hy'.symm.trans hy.2.2)
  obtain ⟨-, hcovered, hdocument⟩ := covers_manifest_iff noted plain hnoted hplain hboth
  have hnoted' : noted.Covered := hcovered.2 fun names content h name hname ↦ by
    obtain rfl | rfl := has_noted_iff.1 h.1
    · exact absurd h.2.1 (by decide)
    · obtain rfl := List.mem_singleton.1 hname
      decide
  have hplain' : plain.Covered := (covered_iff hplain).2 fun names content h name hname ↦ by
    obtain rfl := has_plain_iff.1 h.1
    obtain rfl := List.mem_singleton.1 hname
    decide
  exact ⟨hnoted, hplain, hboth, hnoted', hplain', rfl, hfree, hdocument rfl hnoted' hplain' hfree, rfl⟩

def hidden : Snapshot :=
  ofFiles noteFiles "hidden" (.file ".c.json" classContent .empty) [] { classes := [{ iri := "C" }] }
    (by decide +kernel) (by decide +kernel) (by decide +kernel) (List.forall_mem_nil _) (by decide +kernel)

def bare : Snapshot :=
  ofFiles noteFiles "bare" .empty [] {} (by decide +kernel) trivial rfl (List.forall_mem_nil _) rfl

/-- What stands in a hidden document is read, but the manifest is that of an empty directory. -/
theorem hidden_document_uncovered :
    hidden.print.manifest = bare.print.manifest ∧ ¬ hidden.Covered ∧
    hidden.Reads [Text.utf8 ".c.json"] classContent ∧
    hidden.document = { classes := [{ iri := "C" }] } ∧ bare.document = {} := by
  have hreads : hidden.Reads [Text.utf8 ".c.json"] classContent :=
    ⟨by unfold Has; decide +kernel, by decide +kernel, by decide +kernel⟩
  refine ⟨rfl, fun ⟨manifest, hmanifest, hcovers⟩ ↦ ?_, hreads, rfl, rfl⟩
  obtain rfl := Option.some.inj hmanifest
  exact List.not_mem_nil (hcovers _ _ hreads)

end Snapshot

end OntologyGuard
