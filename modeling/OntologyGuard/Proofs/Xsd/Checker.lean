import OntologyGuard.Proofs.Data.OrderedMap
import OntologyGuard.Proofs.Data.Outcome
import OntologyGuard.Proofs.Text.Split
import OntologyGuard.Xsd.Checker

namespace OntologyGuard.Xsd

theorem Datatype.ofLocalName?_eq_some_iff {name : String} {type : Datatype} :
    ofLocalName? name = some type ↔ type.localName = name := by
  constructor
  · intro h
    have hname := List.find?_some h
    exact eq_of_beq hname
  · rintro rfl
    cases type <;> rfl

namespace Checker

variable {checker : Checker} {id key value : String} {type : Datatype}

theorem localName?_namespaceIri (name : String) : localName? (namespaceIri ++ name) = some name := by
  have hnot : Text.startsWith (namespaceIri ++ name) qualifier = false := by
    simp [Text.startsWith, qualifier, namespaceIri, List.isPrefixOf]
  rw [localName?, hnot, Text.startsWith_append, Text.dropLength_append]
  rfl

theorem localName?_qualifier (name : String) : localName? (qualifier ++ name) = some name := by
  rw [localName?, Text.startsWith_append, Text.dropLength_append]
  rfl

theorem localName?_of_mem_spellings (h : key ∈ spellings id) : localName? key = localName? id := by
  unfold spellings at h
  cases hname : localName? id with
  | none =>
    rw [hname, List.mem_singleton] at h
    rw [h, hname]
  | some name =>
    rw [hname] at h
    rcases List.mem_cons.1 h with rfl | h
    · exact localName?_qualifier name
    · rw [List.mem_singleton.1 h]
      exact localName?_namespaceIri name

theorem find_eq_ok_iff : find id = .ok type ↔ localName? id = some type.localName := by
  unfold find
  cases hname : localName? id with
  | none => simp
  | some name =>
    simp only [Option.some.injEq]
    rw [eq_comm (a := name), ← Datatype.ofLocalName?_eq_some_iff]
    cases Datatype.ofLocalName? name <;> simp

theorem find_of_mem_spellings (h : key ∈ spellings id) :
    find key = .ok type ↔ find id = .ok type := by
  rw [find_eq_ok_iff, find_eq_ok_iff, localName?_of_mem_spellings h]

theorem find_eq_ok_iff_of_startsWith (h : Text.startsWith id namespaceIri = true) :
    find id = .ok type ↔ id = namespaceIri ++ type.localName := by
  obtain ⟨name, rfl⟩ := Text.startsWith_iff.1 h
  rw [find_eq_ok_iff, localName?_namespaceIri, String.append_right_inj, Option.some.injEq]

/-- What is remembered is what would be found, or the report on a spelling of the same type. -/
structure Sound (checker : Checker) : Prop where
  known : ∀ id type, checker.known.get? id = some type → find id = .ok type
  refused : ∀ id found, checker.refused.get? id = some found →
    ∃ asked fault, id ∈ spellings asked ∧ find asked = .error fault ∧ found = [fault.report]

theorem sound_empty : Sound {} where
  known := by rintro id type ⟨⟩
  refused := by rintro id found ⟨⟩

theorem Sound.datatype (h : checker.Sound) (id : String) : (checker.datatype id).2.Sound := by
  unfold Checker.datatype
  split
  · exact h
  · split
    · exact h
    next type hfind =>
      refine ⟨fun key type' hkey ↦ ?_, h.refused⟩
      rw [OrderedMap.get?_foldl_insert] at hkey
      split at hkey
      next hmem =>
        obtain rfl := Option.some.inj hkey
        exact (find_of_mem_spellings hmem).2 hfind
      next => exact h.known key type' hkey

theorem Sound.datatype_of_error (h : checker.Sound) {fault : Fault} (hfind : find id = .error fault) :
    checker.datatype id = (.error fault.report, checker) := by
  unfold Checker.datatype
  cases hknown : checker.known.get? id with
  | some type => cases hfind.symm.trans (h.known id type hknown)
  | none => simp only [hfind]

theorem Sound.datatype_of_ok (h : checker.Sound) (hfind : find id = .ok type) :
    checker.datatype id = (.ok type, (checker.datatype id).2) := by
  unfold Checker.datatype
  cases hknown : checker.known.get? id with
  | some known => rw [Except.ok.inj ((h.known id known hknown).symm.trans hfind)]
  | none => simp only [hfind]

theorem Sound.datatype_fst (h : checker.Sound) (id : String) :
    (checker.datatype id).1 = (find id).mapError Fault.report := by
  cases hfind : find id with
  | error fault => rw [h.datatype_of_error hfind, error_mapError]
  | ok type => rw [h.datatype_of_ok hfind, ok_mapError]

theorem validate_of_refused {found : List Diagnostic} (hrefused : checker.refused.get? id = some found)
    (value : String) : checker.validate value id = (found, checker) := by
  rw [Checker.validate, hrefused]

theorem Sound.validate_of_new (h : checker.Sound) (hnew : checker.refused.get? id = none) (value : String) :
    checker.validate value id =
      match find id with
      | .error fault =>
        ([fault.report],
          { checker with
            refused := (spellings id).foldl (fun refused key ↦ refused.insert key [fault.report])
              checker.refused })
      | .ok type =>
        (if type.accepts value then [] else [(Fault.notAccepted value type).report],
          (checker.datatype id).2) := by
  rw [Checker.validate, hnew]
  cases hfind : find id with
  | error fault => rw [h.datatype_of_error hfind]
  | ok type => rw [h.datatype_of_ok hfind]

theorem validate_empty (value id : String) : (({} : Checker).validate value id).1 =
    match find id with
    | .error fault => [fault.report]
    | .ok type => if type.accepts value then [] else [(Fault.notAccepted value type).report] := by
  rw [sound_empty.validate_of_new rfl]
  cases find id <;> rfl

theorem Sound.validate_fst_of_new (h : checker.Sound) (hnew : checker.refused.get? id = none)
    (value : String) : (checker.validate value id).1 = (({} : Checker).validate value id).1 := by
  rw [h.validate_of_new hnew, validate_empty]
  cases find id <;> rfl

theorem Sound.validate_eq_nil_iff (h : checker.Sound) (value id : String) :
    (checker.validate value id).1 = [] ↔ ∃ type, find id = .ok type ∧ type.accepts value = true := by
  cases hrefused : checker.refused.get? id with
  | some found =>
    obtain ⟨asked, fault, hmem, hfind, rfl⟩ := h.refused id found hrefused
    rw [validate_of_refused hrefused]
    refine iff_of_false (List.cons_ne_nil _ _) ?_
    rintro ⟨type, hok, -⟩
    cases hfind.symm.trans ((find_of_mem_spellings hmem).1 hok)
  | none =>
    rw [h.validate_fst_of_new hrefused, validate_empty]
    cases find id <;> simp

theorem Sound.validate (h : checker.Sound) (value id : String) :
    (checker.validate value id).2.Sound := by
  cases hrefused : checker.refused.get? id with
  | some found => rwa [validate_of_refused hrefused]
  | none =>
    rw [h.validate_of_new hrefused]
    cases hfind : find id with
    | error fault =>
      refine ⟨h.known, fun key found hkey ↦ ?_⟩
      dsimp only at hkey
      rw [OrderedMap.get?_foldl_insert] at hkey
      split at hkey
      next hmem => exact ⟨id, fault, hmem, hfind, (Option.some.inj hkey).symm⟩
      next => exact h.refused key found hkey
    | ok type => exact h.datatype id

def afterCalls (calls : List (String × String)) : Checker :=
  calls.foldl (fun checker call ↦ (checker.validate call.1 call.2).2) {}

theorem sound_afterCalls (calls : List (String × String)) : (afterCalls calls).Sound := by
  have h (checker : Checker) (hsound : checker.Sound) :
      (calls.foldl (fun checker call ↦ (checker.validate call.1 call.2).2) checker).Sound := by
    induction calls generalizing checker with
    | nil => exact hsound
    | cons call rest ih => exact ih _ (hsound.validate call.1 call.2)
  exact h {} sound_empty

/-- A checker that was only asked about identifiers written in full. A report on a qualified name would
be repeated, in its own wording, where the same type is named in full. -/
structure AskedInFull (checker : Checker) : Prop extends Sound checker where
  inFull : ∀ name found, checker.refused.get? (namespaceIri ++ name) = some found →
    ∃ fault, find (namespaceIri ++ name) = .error fault ∧ found = [fault.report]

theorem askedInFull_empty : AskedInFull {} where
  toSound := sound_empty
  inFull := by rintro name found ⟨⟩

theorem eq_of_mem_spellings {name other : String}
    (h : namespaceIri ++ other ∈ spellings (namespaceIri ++ name)) : other = name := by
  have hname := localName?_of_mem_spellings h
  rw [localName?_namespaceIri, localName?_namespaceIri] at hname
  exact Option.some.inj hname

theorem refused_datatype (checker : Checker) (id : String) :
    (checker.datatype id).2.refused = checker.refused := by
  unfold Checker.datatype
  split
  · rfl
  · split <;> rfl

theorem AskedInFull.validate (h : checker.AskedInFull) (value name : String) :
    (checker.validate value (namespaceIri ++ name)).2.AskedInFull := by
  refine ⟨h.toSound.validate value (namespaceIri ++ name), fun other found hother ↦ ?_⟩
  cases hrefused : checker.refused.get? (namespaceIri ++ name) with
  | some report =>
    rw [validate_of_refused hrefused] at hother
    exact h.inFull other found hother
  | none =>
    rw [h.validate_of_new hrefused] at hother
    cases hfind : find (namespaceIri ++ name) with
    | error fault =>
      rw [hfind] at hother
      dsimp only at hother
      rw [OrderedMap.get?_foldl_insert] at hother
      split at hother
      next hmem =>
        obtain rfl := eq_of_mem_spellings hmem
        exact ⟨fault, hfind, (Option.some.inj hother).symm⟩
      next => exact h.inFull other found hother
    | ok type =>
      rw [hfind] at hother
      dsimp only at hother
      rw [refused_datatype] at hother
      exact h.inFull other found hother

/-- The report does not depend on what was asked before. -/
theorem AskedInFull.validate_fst (h : checker.AskedInFull) (value name : String) :
    (checker.validate value (namespaceIri ++ name)).1 =
      (({} : Checker).validate value (namespaceIri ++ name)).1 := by
  cases hrefused : checker.refused.get? (namespaceIri ++ name) with
  | some found =>
    obtain ⟨fault, hfind, rfl⟩ := h.inFull name found hrefused
    rw [validate_of_refused hrefused, validate_empty, hfind]
  | none => exact h.validate_fst_of_new hrefused value

end Checker

end OntologyGuard.Xsd
