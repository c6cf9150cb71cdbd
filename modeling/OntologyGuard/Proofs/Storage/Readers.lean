import OntologyGuard.Proofs.Storage.Marker
import OntologyGuard.Proofs.Storage.Truncation

namespace OntologyGuard.StoredFile

open Binary (sizeLimit)

variable {α β : Type} [Storable α] [Storable β] {fs before after : FileSystem} {path : Pathname} {bytes rest : Bytes}
  {kind : StoredKind} {metadata : Metadata} {value : α}

theorem eq_append_of_decodeKind (h : decodeKind path bytes = .ok (kind, rest)) : bytes = kind.marker ++ rest := by
  unfold decodeKind at h
  split at h
  next found hfound =>
    obtain ⟨rfl, rfl⟩ := Prod.mk.inj (Except.ok.inj h)
    rw [StoredKind.marker_of_ofMarker? hfound, List.take_append_drop]
  next => cases h

/-- What has to hold before the value is looked at. -/
theorem parts_of_decode (h : decode path bytes = .ok (value, metadata)) :
    ∃ rest body, decodeKind path bytes = .ok (Storable.kind α, rest) ∧
      decodeMetadata path rest = .ok (metadata, body) ∧ metadata.version = (Storable.kind α).formatVersion := by
  obtain ⟨⟨kind, rest⟩, hkind, h⟩ := bind_eq_ok h
  by_cases hsame : kind = Storable.kind α
  · subst hsame
    simp only [ne_eq, not_true_eq_false, if_false] at h
    obtain ⟨⟨found, body⟩, hmetadata, h⟩ := bind_eq_ok h
    by_cases hversion : found.version = (Storable.kind α).formatVersion
    · simp only [hversion, not_true_eq_false, if_false] at h
      split at h
      next => cases h
      next =>
        split at h
        next =>
          obtain ⟨rfl, rfl⟩ := Prod.mk.inj (Except.ok.inj h)
          exact ⟨rest, body, hkind, hmetadata, hversion⟩
        next => cases h
    · simp only [hversion, not_false_eq_true, if_true] at h
      cases h
  · simp only [ne_eq, hsame, not_false_eq_true, if_true] at h
    cases h

theorem decode_of_other_kind (path : Pathname) (hkind : kind ≠ Storable.kind α) (rest : Bytes) :
    (decode path (kind.marker ++ rest) : Except Fault (α × Metadata)) =
      .error (.wrongKind path kind (Storable.kind α)) := by
  rw [decode, decodeKind_append, ok_bind]
  simp only [ne_eq, hkind, not_false_eq_true, if_true]
  rfl

theorem decode_of_other_version (path : Pathname)
    (hsize : (Text.utf8 metadata.toJson.compact).length < sizeLimit)
    (hversion : metadata.version ≠ (Storable.kind α).formatVersion) (value : α) :
    ∃ fault, (decode path (encode value metadata) : Except Fault (α × Metadata)) = .error fault ∧
      (metadata.timestamp.IsInstant →
        fault = .otherVersion path metadata.version (Storable.kind α).formatVersion) := by
  rw [encode_eq, decode_header_append path hsize]
  cases htime : Timestamp.parse? metadata.timestamp.text with
  | none =>
    refine ⟨_, rfl, fun h ↦ ?_⟩
    rw [Timestamp.parse?_text h] at htime
    cases htime
  | some time =>
    dsimp only
    rw [if_pos hversion]
    exact ⟨_, rfl, fun _ ↦ rfl⟩

theorem decodeHeader_encode (path : Pathname) (htime : metadata.timestamp.IsInstant)
    (hsize : (Text.utf8 metadata.toJson.compact).length < sizeLimit) (value : α) :
    decodeHeader path (encode value metadata) = .ok (Storable.kind α, metadata) := by
  have hwhole := List.prefix_rfl (l := encode value metadata)
  rw [encode_eq] at hwhole ⊢
  exact (decodeHeader_eq_ok_iff htime hsize hwhole).2 ⟨List.prefix_append _ _, rfl⟩

theorem readMarker_of_readMetadata (h : readMetadata fs path = .ok (kind, metadata)) :
    readMarker fs path = .ok kind := by
  obtain ⟨content, hcontent, hheader⟩ := bind_eq_ok h
  obtain ⟨⟨found, rest⟩, hkind, hrest⟩ := bind_eq_ok hheader
  obtain ⟨_, -, hpair⟩ := bind_eq_ok hrest
  obtain ⟨rfl, -⟩ := Prod.mk.inj (Except.ok.inj hpair)
  rw [readMarker, hcontent, ok_bind, hkind]
  rfl

theorem readMetadata_of_load (h : load fs path = .ok (value, metadata)) :
    readMetadata fs path = .ok (Storable.kind α, metadata) := by
  obtain ⟨content, hcontent, hdecode⟩ := bind_eq_ok h
  obtain ⟨rest, body, hkind, hmetadata, -⟩ := parts_of_decode hdecode
  simp only [readMetadata, hcontent, decodeHeader, hkind, hmetadata, ok_bind]
  rfl

theorem marker_prefix_of_load (hfile : fs.entry path = .ok (.file bytes))
    (h : load fs path = .ok (value, metadata)) :
    (Storable.kind α).marker <+: bytes ∧ metadata.version = (Storable.kind α).formatVersion := by
  rw [load, contentAt, hfile] at h
  obtain ⟨rest, _, hkind, -, hversion⟩ := parts_of_decode h
  exact ⟨⟨rest, (eq_append_of_decodeKind hkind).symm⟩, hversion⟩

theorem kind_eq_of_load {other : β} {metadata' : Metadata} (h : load fs path = .ok (value, metadata))
    (h' : load fs path = .ok (other, metadata')) : Storable.kind α = Storable.kind β :=
  Except.ok.inj ((readMarker_of_load h).symm.trans (readMarker_of_load h'))

theorem load_saved_kind (hsink : before.entry path ≠ .ok .sink)
    (h : save before value metadata path = .ok after) (hkind : Storable.kind α ≠ Storable.kind β) :
    (load after path : Except Fault (β × Metadata)) =
      .error (.wrongKind path (Storable.kind α) (Storable.kind β)) := by
  rw [load, contentAt_save hsink h, ok_bind, encode, List.append_assoc, decode_of_other_kind path hkind]

theorem readMarker_saved (hsink : before.entry path ≠ .ok .sink)
    (h : save before value metadata path = .ok after) : readMarker after path = .ok (Storable.kind α) := by
  rw [readMarker, contentAt_save hsink h, ok_bind, encode, List.append_assoc, decodeKind_append]
  rfl

theorem load_saved_version (hsize : (Text.utf8 metadata.toJson.compact).length < sizeLimit)
    (hversion : metadata.version ≠ (Storable.kind α).formatVersion) (hsink : before.entry path ≠ .ok .sink)
    (h : save before value metadata path = .ok after) :
    (∃ fault, (load after path : Except Fault (α × Metadata)) = .error fault) ∧
    (metadata.timestamp.IsInstant →
      (load after path : Except Fault (α × Metadata)) =
        .error (.otherVersion path metadata.version (Storable.kind α).formatVersion) ∧
      readMetadata after path = .ok (Storable.kind α, metadata)) := by
  obtain ⟨fault, hfault, hother⟩ := decode_of_other_version path hsize hversion value
  rw [load, readMetadata, contentAt_save hsink h, ok_bind, ok_bind, hfault]
  exact ⟨⟨fault, rfl⟩, fun htime ↦ ⟨by rw [hother htime], decodeHeader_encode path htime hsize value⟩⟩

/-- The readers of a file agree on its kind and metadata, no file holds values of both kinds, and a file that was
saved as another kind or in another version of the format is refused as such. The bound on the octets of the
metadata is that of their length field. -/
theorem readers_agree (path : Pathname) :
    (∀ fs bytes, fs.entry path = .ok (.file bytes) →
      (∀ (α : Type) [Storable α] (value : α) metadata, load fs path = .ok (value, metadata) →
        ((Storable.kind α).marker <+: bytes ∧ metadata.version = (Storable.kind α).formatVersion) ∧
          readMetadata fs path = .ok (Storable.kind α, metadata) ∧ readMarker fs path = .ok (Storable.kind α)) ∧
      (∀ kind metadata, readMetadata fs path = .ok (kind, metadata) → readMarker fs path = .ok kind) ∧
      ∀ (ontology : Ontology × Metadata) (graph : DataGraph × Metadata),
        load fs path = .ok ontology → load fs path ≠ .ok graph) ∧
    (∀ before after (ontology : Ontology) metadata, before.entry path ≠ .ok .sink →
      save before ontology metadata path = .ok after →
      (load after path : Except Fault (DataGraph × Metadata)) = .error (.wrongKind path .ontology .caseData)) ∧
    (∀ before after (graph : DataGraph) metadata, before.entry path ≠ .ok .sink →
      save before graph metadata path = .ok after →
      (load after path : Except Fault (Ontology × Metadata)) = .error (.wrongKind path .caseData .ontology)) ∧
    ∀ before after (α : Type) [Storable α] (value : α) metadata, before.entry path ≠ .ok .sink →
      save before value metadata path = .ok after → readMarker after path = .ok (Storable.kind α) ∧
      ((Text.utf8 metadata.toJson.compact).length < sizeLimit →
        metadata.version ≠ (Storable.kind α).formatVersion →
        (∃ fault, (load after path : Except Fault (α × Metadata)) = .error fault) ∧
        (metadata.timestamp.IsInstant →
          (load after path : Except Fault (α × Metadata)) =
            .error (.otherVersion path metadata.version (Storable.kind α).formatVersion) ∧
          readMetadata after path = .ok (Storable.kind α, metadata))) := by
  refine ⟨fun fs bytes hfile ↦
      ⟨fun α _ value metadata h ↦ ?_, fun kind metadata h ↦ ?_, fun ontology graph h h' ↦ ?_⟩,
    fun _ _ _ _ hsink h ↦ ?_, fun _ _ _ _ hsink h ↦ ?_, fun _ _ α _ value metadata hsink h ↦
      ⟨readMarker_saved hsink h, fun hsize hversion ↦ ?_⟩⟩
  · exact ⟨marker_prefix_of_load hfile h, readMetadata_of_load h, readMarker_of_load h⟩
  · exact readMarker_of_readMetadata h
  · exact absurd (kind_eq_of_load h h') (by decide)
  · exact load_saved_kind hsink h (by decide)
  · exact load_saved_kind hsink h (by decide)
  · exact load_saved_version hsize hversion hsink h

theorem readers_agree_tool :
    let current := toolMetadata .ontology
    let old := { toolMetadata .caseData with version := "0.9" }
    let fs : FileSystem := { root := .file "state" (encode toolOntology current) .empty }
    let fs' : FileSystem := { root := .file "state" (encode toolGraph old) .empty }
    (save {} toolOntology current "state" = .ok fs ∧ load fs "state" = .ok (toolOntology, current) ∧
      readMetadata fs "state" = .ok (.ontology, current) ∧ readMarker fs "state" = .ok .ontology ∧
      (∀ graph : DataGraph × Metadata, load fs "state" ≠ .ok graph) ∧
      (load fs "state" : Except Fault (DataGraph × Metadata)) = .error (.wrongKind "state" .ontology .caseData)) ∧
    save {} toolGraph old "state" = .ok fs' ∧
      (load fs' "state" : Except Fault (Ontology × Metadata)) = .error (.wrongKind "state" .caseData .ontology) ∧
      (load fs' "state" : Except Fault (DataGraph × Metadata)) = .error (.otherVersion "state" "0.9" "1.1") ∧
      readMetadata fs' "state" = .ok (.caseData, old) ∧ readMarker fs' "state" = .ok .caseData := by
  intro current old fs fs'
  have htime := isInstant_toolMetadata .ontology
  have hold : old.timestamp.IsInstant := isInstant_toolMetadata .caseData
  have hsize : (encode toolOntology current).length < sizeLimit := by decide +kernel
  have hsize' : (Text.utf8 old.toJson.compact).length < sizeLimit := by decide +kernel
  have hsaved : save {} toolOntology current "state" = .ok fs := rfl
  have hsaved' : save {} toolGraph old "state" = .ok fs' := rfl
  have hsink : ({} : FileSystem).entry "state" ≠ .ok .sink := by decide +kernel
  have hload := load_of_save Ontology.codec_lawful htime rfl hsize hsink hsaved
  obtain ⟨hfile, hontology, hgraph, hversion⟩ := readers_agree "state"
  obtain ⟨hloaded, -, hother⟩ := hfile fs _ rfl
  obtain ⟨-, hmetadata, hmarker⟩ := hloaded Ontology _ _ hload
  obtain ⟨hmarker', hrefused⟩ := hversion _ _ DataGraph _ old hsink hsaved'
  obtain ⟨hrefused, hmetadata'⟩ := (hrefused hsize' (by decide)).2 hold
  exact ⟨⟨hsaved, hload, hmetadata, hmarker, fun graph ↦ hother _ graph hload, hontology _ _ _ _ hsink hsaved⟩,
    hsaved', hgraph _ _ _ _ hsink hsaved', hrefused, hmetadata', hmarker'⟩

end OntologyGuard.StoredFile
