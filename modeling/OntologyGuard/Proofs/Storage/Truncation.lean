import OntologyGuard.Proofs.Storage.RoundTrip

namespace OntologyGuard

namespace StoredKind

theorem ofMarker?_short {bytes : Bytes} (h : bytes.length < 8) : ofMarker? bytes = none := by
  refine List.find?_eq_none.2 fun kind _ hkind ↦ ?_
  have heq : kind.marker = bytes := by simpa using hkind
  have hlength := kind.length_marker
  rw [heq] at hlength
  omega

end StoredKind

namespace StoredFile

open Binary (Codec sizeLimit)

variable {α : Type} [Storable α] {part front back bytes : Bytes} {kind : StoredKind}
  {metadata : Metadata} {path : Pathname}

/-- What is cut off from two pieces ends in the first, or has the first whole. -/
theorem cut_append (h : part <+: front ++ back) :
    part <+: front ∧ part.length < front.length ∨ ∃ rest, part = front ++ rest ∧ rest <+: back := by
  rcases List.prefix_or_prefix_of_prefix h (List.prefix_append front back) with hshort | ⟨rest, rfl⟩
  · rcases Nat.lt_or_ge part.length front.length with hlt | hge
    · exact .inl ⟨hshort, hlt⟩
    · obtain rfl := hshort.eq_of_length_le hge
      exact .inr ⟨[], (List.append_nil part).symm, List.nil_prefix⟩
  · exact .inr ⟨rest, rfl, (List.prefix_append_right_inj front).1 h⟩

/-- A reader that needs a front as a whole has a result exactly where the front is. -/
theorem eq_ok_iff_of_cut {ε β : Type} (read : Bytes → Except ε β) {result found : β}
    (hcut : ∀ part, part <+: front → part.length < front.length → ∃ fault, read part = .error fault)
    (hwhole : ∀ rest, read (front ++ rest) = .ok result) (hpart : part <+: front ++ back) :
    read part = .ok found ↔ front <+: part ∧ found = result := by
  rcases cut_append hpart with ⟨hfront, hshort⟩ | ⟨rest, rfl, -⟩
  · have hnot : ¬ front <+: part := fun h ↦ Nat.not_le.2 hshort h.length_le
    obtain ⟨fault, hfault⟩ := hcut part hfront hshort
    simp [hfault, hnot]
  · simp [hwhole, eq_comm]

theorem readBlock_cut (hpart : part <+: block bytes) (hshort : part.length < (block bytes).length)
    (hsize : bytes.length < sizeLimit) : readBlock part = .error .endOfInput := by
  rw [length_block] at hshort
  rcases cut_append hpart with ⟨-, hlength⟩ | ⟨rest, rfl, hrest⟩
  · rw [Codec.length_natural_write] at hlength
    have hsplit := Binary.split_eq_error hlength
    simp only [readBlock, Codec.natural, hsplit]
    rfl
  · rw [List.length_append, Codec.length_natural_write] at hshort
    have hsplit : Binary.split bytes.length rest = .error .endOfInput :=
      Binary.split_eq_error (by omega)
    rw [readBlock, Codec.natural_read_write hsize, ok_bind]
    exact hsplit

theorem decodeKind_cut (path : Pathname) (h : part.length < 8) :
    decodeKind path part = .error (.notStored path) := by
  have hshort : (part.take 8).length < 8 := by
    rw [List.length_take]
    omega
  rw [decodeKind, StoredKind.ofMarker?_short hshort]

theorem decodeMetadata_cut (hpart : part <+: block (Text.utf8 metadata.toJson.compact))
    (hshort : part.length < (block (Text.utf8 metadata.toJson.compact)).length)
    (hsize : (Text.utf8 metadata.toJson.compact).length < sizeLimit) :
    decodeMetadata path part = .error (.notStored path) := by
  rw [decodeMetadata, readBlock_cut hpart hshort hsize]

theorem cut_header (path : Pathname) (hpart : part <+: header kind metadata)
    (hshort : part.length < (header kind metadata).length)
    (hsize : (Text.utf8 metadata.toJson.compact).length < sizeLimit) :
    decodeKind path part = .error (.notStored path) ∨
      ∃ rest, decodeKind path part = .ok (kind, rest) ∧
        decodeMetadata path rest = .error (.notStored path) := by
  rcases cut_append hpart with ⟨-, hmarker⟩ | ⟨rest, rfl, hrest⟩
  · exact .inl (decodeKind_cut path (kind.length_marker ▸ hmarker))
  · have hlength : rest.length < (block (Text.utf8 metadata.toJson.compact)).length := by
      simpa only [header, List.length_append, Nat.add_lt_add_iff_left] using hshort
    exact .inr ⟨rest, decodeKind_append path kind rest, decodeMetadata_cut hrest hlength hsize⟩

theorem decodeHeader_eq_ok_iff {found : StoredKind × Metadata} (htime : metadata.timestamp.IsInstant)
    (hsize : (Text.utf8 metadata.toJson.compact).length < sizeLimit)
    (hpart : part <+: header kind metadata ++ back) :
    decodeHeader path part = .ok found ↔
      header kind metadata <+: part ∧ found = (kind, metadata) := by
  refine eq_ok_iff_of_cut (decodeHeader path) (fun part hfront hshort ↦ ⟨.notStored path, ?_⟩) (fun rest ↦ ?_) hpart
  · rcases cut_header path hfront hshort hsize with hkind | ⟨rest, hkind, hmetadata⟩
    · rw [decodeHeader, hkind, error_bind]
    · simp only [decodeHeader, hkind, hmetadata, ok_bind, error_bind]
  · have hmetadata := decodeMetadata_of_isInstant path htime hsize rest
    simp only [decodeHeader, header, List.append_assoc, decodeKind_append, hmetadata, ok_bind]
    rfl

theorem decode_cut {value : α} (hsize : (encode value metadata).length < sizeLimit)
    (hpart : part <+: encode value metadata) (hcut : part ≠ encode value metadata) :
    ∃ fault, (decode path part : Except Fault (α × Metadata)) = .error fault := by
  simp only [encode, List.length_append, length_block] at hsize
  rw [encode_eq] at hpart hcut
  rcases cut_append hpart with ⟨hfront, hshort⟩ | ⟨rest, rfl, hrest⟩
  · rcases cut_header path hfront hshort (by omega) with hkind | ⟨rest, hkind, hmetadata⟩
    · rw [decode, hkind]
      exact ⟨_, rfl⟩
    · simp only [decode, hkind, hmetadata, ok_bind, ne_eq, not_true_eq_false, if_false]
      exact ⟨_, rfl⟩
  · have hne : rest ≠ block ((Storable.codec : Codec α).write value) := fun h ↦ hcut (h ▸ rfl)
    have hshort : rest.length < (block ((Storable.codec : Codec α).write value)).length :=
      Nat.lt_of_not_ge fun hge ↦ hne (hrest.eq_of_length_le hge)
    have hbody := readBlock_cut hrest hshort (by omega)
    rw [decode_header_append path (by omega), hbody]
    cases Timestamp.parse? metadata.timestamp.text with
    | none => exact ⟨_, rfl⟩
    | some time =>
      dsimp only
      split
      · exact ⟨_, rfl⟩
      · exact ⟨_, rfl⟩

theorem readMarker_eq_ok_iff {fs : FileSystem} (hcontent : contentAt fs path = .ok part)
    (hpart : part <+: kind.marker ++ back) {found : StoredKind} :
    readMarker fs path = .ok found ↔ kind.marker <+: part ∧ found = kind := by
  rw [readMarker, hcontent, ok_bind]
  refine eq_ok_iff_of_cut (fun bytes ↦ do return (← decodeKind path bytes).1)
    (fun part _ hshort ↦ ⟨.notStored path, ?_⟩) (fun rest ↦ ?_) hpart
  · rw [decodeKind_cut path (kind.length_marker ▸ hshort), error_bind]
  · rw [decodeKind_append, ok_bind]
    rfl

/-- A strict part of a stored file never loads. Its marker is read if and only if it is there as a whole,
and so is the metadata. -/
theorem load_truncated (value : α) (hsize : (encode value metadata).length < sizeLimit)
    (hpart : part <+: encode value metadata) (hcut : part ≠ encode value metadata) {fs : FileSystem}
    (hfile : fs.entry path = .ok (.file part)) :
    (∃ fault, (load fs path : Except Fault (α × Metadata)) = .error fault) ∧
    (∀ found, readMarker fs path = .ok found ↔
      (Storable.kind α).marker <+: part ∧ found = Storable.kind α) ∧
    (metadata.timestamp.IsInstant → ∀ found, readMetadata fs path = .ok found ↔
      header (Storable.kind α) metadata <+: part ∧ found = (Storable.kind α, metadata)) := by
  have hcontent : contentAt fs path = .ok part := by rw [contentAt, hfile]
  have hmetadata : (Text.utf8 metadata.toJson.compact).length < sizeLimit := by
    simp only [encode, List.length_append, length_block] at hsize
    omega
  have hmarker : part <+: (Storable.kind α).marker ++ (block (Text.utf8 metadata.toJson.compact) ++
      block ((Storable.codec : Codec α).write value)) := by
    rwa [← List.append_assoc]
  refine ⟨?_, fun found ↦ readMarker_eq_ok_iff hcontent hmarker, fun htime found ↦ ?_⟩
  · rw [load, hcontent]
    exact decode_cut hsize hpart hcut
  · rw [readMetadata, hcontent]
    exact decodeHeader_eq_ok_iff htime hmetadata hpart

def cutGraph : Bytes := (encode toolGraph (toolMetadata .caseData)).dropLast

theorem load_truncated_graph :
    let fs : FileSystem := { root := .file "data" cutGraph .empty }
    (cutGraph <+: encode toolGraph (toolMetadata .caseData) ∧
      cutGraph ≠ encode toolGraph (toolMetadata .caseData)) ∧
    (∃ fault, (load fs "data" : Except Fault (DataGraph × Metadata)) = .error fault) ∧
    readMarker fs "data" = .ok .caseData ∧
    readMetadata fs "data" = .ok (.caseData, toolMetadata .caseData) := by
  intro fs
  have htime := isInstant_toolMetadata .caseData
  have hsize : (encode toolGraph (toolMetadata .caseData)).length < sizeLimit := by decide +kernel
  have hpart : cutGraph <+: encode toolGraph (toolMetadata .caseData) := List.dropLast_prefix _
  have hcut : cutGraph ≠ encode toolGraph (toolMetadata .caseData) := by decide +kernel
  have hheader : header .caseData (toolMetadata .caseData) <+: cutGraph := by decide +kernel
  have hmarker : StoredKind.caseData.marker <+: cutGraph := (List.prefix_append _ _).trans hheader
  have hfile : fs.entry "data" = .ok (.file cutGraph) := rfl
  obtain ⟨hload, hkind, hmetadata⟩ := load_truncated toolGraph hsize hpart hcut hfile
  exact ⟨⟨hpart, hcut⟩, hload, (hkind _).2 ⟨hmarker, rfl⟩, (hmetadata htime _).2 ⟨hheader, rfl⟩⟩

end StoredFile

end OntologyGuard
