import OntologyGuard.Command.Source
import OntologyGuard.Proofs.Data.Outcome
import OntologyGuard.Proofs.Text.Utf8
import OntologyGuard.Storage.StoredFile

/-!
No file is a stored one and a document at once: the only letters that a JSON text can begin with are those of
`null`, `true` and `false`, and the markers of the stored kinds begin with others.
-/

namespace OntologyGuard

namespace Json.Token

variable {c : Char} {seen : List Char} {ts : List Token}

theorem getLast?_of_finish?_word (h : finish? (.word seen) = some ts) :
    ∃ first ∈ ['n', 't', 'f'], seen.getLast? = some first := by
  have hseen (s : String) (hs : String.ofList seen.reverse = s) : seen.getLast? = s.toList.head? := by
    rw [← hs, String.toList_ofList, List.head?_reverse]
  simp only [finish?] at h
  split at h
  · next hnull => exact ⟨'n', by decide, hseen _ hnull⟩
  · next htrue => exact ⟨'t', by decide, hseen _ htrue⟩
  · next hfalse => exact ⟨'f', by decide, hseen _ hfalse⟩
  · cases h

theorem finish?_word_eq_none (hseen : seen.getLast? = some c) (hc : c ∉ ['n', 't', 'f']) :
    finish? (.word seen) = none := by
  apply Option.eq_none_iff_forall_ne_some.2
  intro ts h
  obtain ⟨first, hmem, hfirst⟩ := getLast?_of_finish?_word h
  exact hc (Option.some.inj (hseen.symm.trans hfirst) ▸ hmem)

/-- Whatever else follows, the word is wrong from its first letter on. -/
theorem scanFrom_word_eq_none (hseen : seen.getLast? = some c) (hc : c ∉ ['n', 't', 'f'])
    (rest : List (Option Char)) (found : List Token) : scanFrom rest (.word seen) found = none := by
  have hfinish := finish?_word_eq_none hseen hc
  induction rest generalizing seen found with
  | nil => simp only [scanFrom, hfinish, Option.map_none]
  | cons next more ih =>
    cases next with
    | none => rfl
    | some d =>
      have hlonger : (d :: seen).getLast? = some c := by simp [List.getLast?_cons, hseen]
      by_cases hlower : d.isLower
      · simp only [scanFrom, step?, if_pos hlower]
        exact ih hlonger _ (finish?_word_eq_none hlonger hc)
      · simp only [scanFrom, step?, if_neg hlower, hfinish, Option.bind_none, bind]

theorem scan?_eq_none (hstart : start? c = some (.word [c], [])) (hc : c ∉ ['n', 't', 'f'])
    (rest : List (Option Char)) : scan? (some c :: rest) = none := by
  simp only [scan?, scanFrom, step?, hstart]
  exact scanFrom_word_eq_none rfl hc rest _

end Json.Token

namespace StoredKind

variable {kind : StoredKind} {bytes : Bytes} {text : String}

theorem exists_letter (kind : StoredKind) :
    ∃ byte rest, kind.marker = byte :: rest ∧ byte.toNat < 128 ∧ ∀ c : Char, c.toNat = byte.toNat →
      Json.Token.start? c = some (.word [c], []) ∧ c ∉ ['n', 't', 'f'] := by
  have hletter (letter : Char) (hstart : Json.Token.start? letter = some (.word [letter], []))
      (hword : letter ∉ ['n', 't', 'f']) (c : Char) (hc : c.toNat = letter.toNat) :
      Json.Token.start? c = some (.word [c], []) ∧ c ∉ ['n', 't', 'f'] := by
    obtain rfl : c = letter := Char.toNat_inj.1 hc
    exact ⟨hstart, hword⟩
  cases kind with
  | ontology => exact ⟨_, _, rfl, by decide, hletter 'o' rfl (by decide)⟩
  | caseData => exact ⟨_, _, rfl, by decide, hletter 'c' rfl (by decide)⟩

theorem marker_of_ofMarker? (h : ofMarker? bytes = some kind) : kind.marker = bytes := by
  have hfound := List.find?_some h
  exact beq_iff_eq.1 hfound

theorem parse?_eq_none (h : ofMarker? ((Text.utf8 text).take 8) = some kind) : Json.parse? text = none := by
  obtain ⟨byte, rest, hmarker, hbyte, hletter⟩ := kind.exists_letter
  have htake := marker_of_ofMarker? h
  have hbytes : Text.utf8 text = byte :: (rest ++ (Text.utf8 text).drop 8) := by
    rw [← List.cons_append, ← hmarker, htake, List.take_append_drop]
  obtain ⟨c, cs, htext, hc⟩ := Text.head_toList hbytes hbyte
  obtain ⟨hstart, hword⟩ := hletter c hc
  rw [Json.parse?, htext, List.map_cons, Json.ofChars?, Json.Token.scan?_eq_none hstart hword]
  rfl

end StoredKind

namespace StoredFile

variable {fs : FileSystem} {path : Pathname}

theorem contentAt_of_read {content : Bytes} (h : fs.read path = .ok content) : contentAt fs path = .ok content := by
  obtain ⟨entry, hentry, h⟩ := bind_eq_ok h
  rw [contentAt, hentry]
  cases entry with
  | folder inner => cases h
  | leaf found =>
    cases found with
    | file octets =>
      obtain rfl := Except.ok.inj h
      rfl
    | sink =>
      obtain rfl := Except.ok.inj h
      rfl
    | locked isFolder => cases h

theorem readMarker_of_load {α : Type} [Storable α] {value : α} {metadata : Metadata}
    (h : load fs path = .ok (value, metadata)) : readMarker fs path = .ok (Storable.kind α) := by
  obtain ⟨content, hcontent, hdecode⟩ := bind_eq_ok h
  obtain ⟨⟨kind, rest⟩, hkind, hrest⟩ := bind_eq_ok hdecode
  by_cases hsame : kind = Storable.kind α
  · rw [readMarker, hcontent, ok_bind, hkind, ← hsame]
    rfl
  · simp only [ne_eq, hsame, not_false_eq_true, if_true] at hrest
    cases hrest

end StoredFile

theorem Source.readMarker_of_load {α : Type} {read : Json → Option α} {fs : FileSystem} {path : Pathname}
    {value : α} (h : load read fs path = .ok value) :
    StoredFile.readMarker fs path = .error (.notStored path) := by
  unfold load at h
  split at h
  · next content hread =>
    unfold decodeBytes at h
    split at h
    · next text htext =>
      obtain rfl := Text.utf8_of_ofUtf8? htext
      have hkind : StoredKind.ofMarker? ((Text.utf8 text).take 8) = none := by
        apply Option.eq_none_iff_forall_ne_some.2
        intro kind hkind
        rw [decode, StoredKind.parse?_eq_none hkind] at h
        cases h
      rw [StoredFile.readMarker, StoredFile.contentAt_of_read hread, ok_bind, StoredFile.decodeKind, hkind]
      rfl
    · cases h
  · cases h

end OntologyGuard
