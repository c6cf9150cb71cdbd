import OntologyGuard.Proofs.Binary.Values
import OntologyGuard.Proofs.Storage.FileSystem
import OntologyGuard.Proofs.Storage.Metadata
import OntologyGuard.Storage.StoredFile

/-!
What was stored is loaded again: the value in all its parts and in its order, and the metadata. The
lengths in a file have eight octets each, which no file in memory exceeds.
-/

namespace OntologyGuard

namespace StoredKind

theorem length_marker (kind : StoredKind) : kind.marker.length = 8 := by cases kind <;> rfl

theorem ofMarker?_marker (kind : StoredKind) : ofMarker? kind.marker = some kind := by
  cases kind <;> rfl

end StoredKind

namespace StoredFile

open Binary (Codec sizeLimit)

variable {α : Type} [Storable α] {metadata : Metadata} {path : Pathname}

theorem length_block (bytes : Bytes) : (block bytes).length = 8 + bytes.length := by
  rw [block, List.length_append, Codec.length_natural_write]

theorem readBlock_append {bytes : Bytes} (h : bytes.length < sizeLimit) (rest : Bytes) :
    readBlock (block bytes ++ rest) = .ok (bytes, rest) := by
  rw [block, List.append_assoc, readBlock, Codec.natural_read_write h, ok_bind]
  exact Binary.split_append bytes rest

def header (kind : StoredKind) (metadata : Metadata) : Bytes :=
  kind.marker ++ block (Text.utf8 metadata.toJson.compact)

theorem encode_eq (value : α) (metadata : Metadata) : encode value metadata =
    header (Storable.kind α) metadata ++ block ((Storable.codec : Codec α).write value) := rfl

theorem decodeKind_append (path : Pathname) (kind : StoredKind) (rest : Bytes) :
    decodeKind path (kind.marker ++ rest) = .ok (kind, rest) := by
  have hlength := kind.length_marker
  have htake : (kind.marker ++ rest).take 8 = kind.marker := hlength ▸ List.take_left
  have hdrop : (kind.marker ++ rest).drop 8 = rest := hlength ▸ List.drop_left
  rw [decodeKind, htake, hdrop, StoredKind.ofMarker?_marker]

theorem decodeMetadata_append (path : Pathname)
    (hsize : (Text.utf8 metadata.toJson.compact).length < sizeLimit) (rest : Bytes) :
    decodeMetadata path (block (Text.utf8 metadata.toJson.compact) ++ rest) =
      match Timestamp.parse? metadata.timestamp.text with
      | some time => .ok ({ metadata with timestamp := time }, rest)
      | none => .error .invalidMetadata := by
  rw [decodeMetadata, readBlock_append hsize]
  dsimp only
  rw [Metadata.parseBytes?_compact]
  cases Timestamp.parse? metadata.timestamp.text <;> rfl

theorem decodeMetadata_of_isInstant (path : Pathname) (htime : metadata.timestamp.IsInstant)
    (hsize : (Text.utf8 metadata.toJson.compact).length < sizeLimit) (rest : Bytes) :
    decodeMetadata path (block (Text.utf8 metadata.toJson.compact) ++ rest) = .ok (metadata, rest) := by
  rw [decodeMetadata_append path hsize, Timestamp.parse?_text htime]

theorem decode_header_append (path : Pathname)
    (hsize : (Text.utf8 metadata.toJson.compact).length < sizeLimit) (rest : Bytes) :
    (decode path (header (Storable.kind α) metadata ++ rest) : Except Fault (α × Metadata)) =
      match Timestamp.parse? metadata.timestamp.text with
      | none => .error .invalidMetadata
      | some time =>
        if metadata.version ≠ (Storable.kind α).formatVersion then
          .error (.otherVersion path metadata.version (Storable.kind α).formatVersion)
        else
          match readBlock rest with
          | .error _ => .error (.unreadable path .unexpectedEnd)
          | .ok (content, _) =>
            match (Storable.codec : Codec α).read content with
            | .ok (value, _) => .ok (value, { metadata with timestamp := time })
            | .error cause => .error (.invalidBody cause) := by
  have hkind := decodeKind_append path (Storable.kind α)
    (block (Text.utf8 metadata.toJson.compact) ++ rest)
  have hmetadata := decodeMetadata_append path hsize rest
  simp only [decode, header, List.append_assoc, hkind, hmetadata, ok_bind, ne_eq,
    not_true_eq_false, if_false]
  cases Timestamp.parse? metadata.timestamp.text with
  | none => rfl
  | some time =>
    simp only [ok_bind]
    split <;> rfl

theorem decode_encode (hcodec : (Storable.codec : Codec α).Lawful) (path : Pathname) (value : α)
    (htime : metadata.timestamp.IsInstant) (hversion : metadata.version = (Storable.kind α).formatVersion)
    (hsize : (encode value metadata).length < sizeLimit) :
    decode path (encode value metadata) = .ok (value, metadata) := by
  simp only [encode, List.length_append, length_block] at hsize
  have hread := hcodec.read_write value [] (by omega)
  have hbody : readBlock (block ((Storable.codec : Codec α).write value) ++ []) =
      .ok ((Storable.codec : Codec α).write value, []) :=
    readBlock_append (by omega) []
  rw [List.append_nil] at hread hbody
  rw [encode_eq, decode_header_append path (by omega), Timestamp.parse?_text htime]
  dsimp only
  rw [if_neg (not_not.2 hversion), hbody]
  dsimp only
  rw [hread]

theorem write_of_save {fs fs' : FileSystem} {path : Pathname} {value : α}
    (h : save fs value metadata path = .ok fs') : fs.write path (encode value metadata) = .ok fs' := by
  unfold save at h
  split at h
  · next written hwrite =>
    obtain rfl := Except.ok.inj h
    exact hwrite
  · cases h

theorem contentAt_save {fs fs' : FileSystem} {value : α} (hsink : fs.entry path ≠ .ok .sink)
    (h : save fs value metadata path = .ok fs') : contentAt fs' path = .ok (encode value metadata) := by
  rw [contentAt, FileSystem.entry_write (write_of_save h) hsink]

theorem load_of_save (hcodec : (Storable.codec : Codec α).Lawful) {fs fs' : FileSystem} {value : α}
    (htime : metadata.timestamp.IsInstant) (hversion : metadata.version = (Storable.kind α).formatVersion)
    (hsize : (encode value metadata).length < sizeLimit) (hsink : fs.entry path ≠ .ok .sink)
    (h : save fs value metadata path = .ok fs') : load fs' path = .ok (value, metadata) := by
  rw [load, contentAt_save hsink h, ok_bind, decode_encode hcodec path value htime hversion hsize]

/-- Loading undoes saving, for ontologies and for data graphs. The bound on the octets is that of the
length fields, and the file is no device that keeps nothing. -/
theorem load_save (path : Pathname) (metadata : Metadata) (htime : metadata.timestamp.IsInstant) :
    (∀ ontology : Ontology, metadata.version = StoredKind.ontology.formatVersion →
      (encode ontology metadata).length < sizeLimit →
      decode path (encode ontology metadata) = .ok (ontology, metadata) ∧
        ∀ fs fs', fs.entry path ≠ .ok .sink → save fs ontology metadata path = .ok fs' →
          load fs' path = .ok (ontology, metadata)) ∧
    (∀ graph : DataGraph, metadata.version = StoredKind.caseData.formatVersion →
      (encode graph metadata).length < sizeLimit →
      decode path (encode graph metadata) = .ok (graph, metadata) ∧
        ∀ fs fs', fs.entry path ≠ .ok .sink → save fs graph metadata path = .ok fs' →
          load fs' path = .ok (graph, metadata)) :=
  ⟨fun ontology hversion hsize ↦
    ⟨decode_encode Ontology.codec_lawful path ontology htime hversion hsize,
      fun _ _ ↦ load_of_save Ontology.codec_lawful htime hversion hsize⟩,
    fun graph hversion hsize ↦
    ⟨decode_encode DataGraph.codec_lawful path graph htime hversion hsize,
      fun _ _ ↦ load_of_save DataGraph.codec_lawful htime hversion hsize⟩⟩

/-- The keys are not in order, one bound is qualified and one is not, and fields are left out. -/
def toolOntology : Ontology where
  bindings := [("ex", "http://example.org/")]
  definitions := .ofList [
    ("http://example.org/Tool", .restricted ⟨"http://example.org/Tool", .ofList [
      ("http://example.org/version", { min := some 0, max := some 1, qualified := some true }),
      ("http://example.org/name", { max := some 4294967295, qualified := some false })]⟩),
    ("http://example.org/Agent", .unconstrained)]
  propertyRanges := .ofList [("http://example.org/version", some ""), ("http://example.org/name", none)]
  ancestors := .ofList [
    ("http://example.org/Tool", ["http://example.org/Thing", "http://example.org/Agent"])]
  diagnostics := [{ kind := .softwareBug, message := "é", line := some 0 }]

def toolGraph : DataGraph where
  triples := [⟨.blank "b", "http://example.org/name", .literal ⟨"hammer", none⟩⟩]
  lineNumbers := [⟨.blank "b", 7⟩, ⟨.iri "http://example.org/a", 3⟩]

/-- Stored in the leap second at the end of 2016, with a comment that JSON has to escape. -/
def toolMetadata (kind : StoredKind) : Metadata where
  version := kind.formatVersion
  path := some ""
  manifest := some (.ofList [("b.json", "ff"), ("a.json", "00")])
  timestamp := { day := 17166, second := 86399, nanosecond := 1500000000 }
  comment := some "the \"first\"\n"

theorem isInstant_toolMetadata (kind : StoredKind) : (toolMetadata kind).timestamp.IsInstant where
  year := by cases kind <;> decide +kernel
  second := by simp [toolMetadata]
  nanosecond := by simp [toolMetadata]

theorem load_save_tool :
    (toolMetadata .ontology).timestamp.IsInstant ∧
    (encode toolOntology (toolMetadata .ontology)).length < sizeLimit ∧
    (encode toolGraph (toolMetadata .caseData)).length < sizeLimit ∧
    ∃ ontologies graphs,
      save {} toolOntology (toolMetadata .ontology) "state" = .ok ontologies ∧
      load ontologies "state" = .ok (toolOntology, toolMetadata .ontology) ∧
      save {} toolGraph (toolMetadata .caseData) "data" = .ok graphs ∧
      load graphs "data" = .ok (toolGraph, toolMetadata .caseData) := by
  have htime := isInstant_toolMetadata .ontology
  have hsize : (encode toolOntology (toolMetadata .ontology)).length < sizeLimit := by decide +kernel
  have hsize' : (encode toolGraph (toolMetadata .caseData)).length < sizeLimit := by decide +kernel
  have hontology := (load_save "state" (toolMetadata .ontology) htime).1 toolOntology rfl hsize
  have hgraph := (load_save "data" (toolMetadata .caseData) htime).2 toolGraph rfl hsize'
  exact ⟨htime, hsize, hsize',
    { root := .file "state" (encode toolOntology (toolMetadata .ontology)) .empty },
    { root := .file "data" (encode toolGraph (toolMetadata .caseData)) .empty },
    rfl, hontology.2 {} _ (by decide +kernel) rfl, rfl, hgraph.2 {} _ (by decide +kernel) rfl⟩

end StoredFile

end OntologyGuard
