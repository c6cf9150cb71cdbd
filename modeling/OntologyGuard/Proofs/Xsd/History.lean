import Mathlib.Data.List.Induction
import OntologyGuard.Proofs.Xsd.Spelling

/-!
The memory of a checker in closed form. After any calls it knows the supported types among those it was
asked for, in both spellings, and refuses the others that values were checked against. Its answers are
those of a new checker, only that a refusal keeps the wording of the first one.
-/

namespace OntologyGuard.Xsd

namespace Checker

inductive Call where
  | validate (value id : String)
  | datatype (id : String)

def Call.id : Call → String
  | validate _ id => id
  | datatype id => id

def Call.checked? : Call → Option String
  | validate _ id => some id
  | datatype _ => none

def perform (checker : Checker) : Call → Checker
  | .validate value id => (checker.validate value id).2
  | .datatype id => (checker.datatype id).2

def after (calls : List Call) : Checker := calls.foldl perform {}

/-- The identifier under which values were first checked against a type. -/
def firstChecked? (calls : List Call) (id : String) : Option String :=
  (calls.filterMap Call.checked?).find? fun asked ↦ SameType asked id

def refusal? (asked : String) : Option (List Diagnostic) :=
  match find asked with
  | .error fault => some [fault.report]
  | .ok _ => none

structure Remembers (calls : List Call) (checker : Checker) : Prop where
  known : ∀ key type, checker.known.get? key = some type ↔
    find key = .ok type ∧ ∃ call ∈ calls, SameType call.id key
  refused : ∀ key, checker.refused.get? key = (firstChecked? calls key).bind refusal?

variable {checker : Checker} {calls : List Call} {id key asked : String}

theorem known_datatype {Asked : String → Prop}
    (h : ∀ key type, checker.known.get? key = some type ↔ find key = .ok type ∧ Asked key)
    (hsame : ∀ a b, SameType a b → Asked a → Asked b) (id key : String) (type : Datatype) :
    (checker.datatype id).2.known.get? key = some type ↔
      find key = .ok type ∧ (Asked key ∨ SameType id key) := by
  unfold Checker.datatype
  split
  next known hknown =>
    have hasked := ((h id known).1 hknown).2
    rw [h, or_iff_left_of_imp fun hkey ↦ hsame id key hkey hasked]
  next hunknown =>
    split
    next fault hfault =>
      rw [h]
      refine and_congr_right fun hfind ↦ (or_iff_left fun hkey ↦ ?_).symm
      cases hfault.symm.trans ((find_eq_ok_iff_of_sameType hkey).1 hfind)
    next found hfound =>
      dsimp only
      rw [OrderedMap.get?_foldl_insert]
      simp only [mem_spellings_iff]
      split
      next hkey =>
        rw [find_eq_ok_iff_of_sameType hkey, hfound]
        simp [hkey]
      next hkey => simp [h, hkey]

theorem firstChecked?_congr (h : SameType id key) : firstChecked? calls id = firstChecked? calls key := by
  unfold firstChecked?
  congr 1
  funext asked
  exact decide_eq_decide.2 ⟨fun hid ↦ hid.trans h, fun hkey ↦ hkey.trans h.symm⟩

theorem sameType_of_firstChecked? (h : firstChecked? calls id = some asked) : SameType asked id :=
  of_decide_eq_true (List.find?_some (p := fun asked ↦ decide (SameType asked id)) h)

theorem firstChecked?_validate (value : String) : firstChecked? (calls ++ [.validate value id]) key =
    (firstChecked? calls key).or (if SameType id key then some id else none) := by
  simp only [firstChecked?, List.filterMap_append, List.find?_append]
  congr 1
  split <;> simp_all [Call.checked?]

theorem firstChecked?_datatype : firstChecked? (calls ++ [.datatype id]) key = firstChecked? calls key := by
  simp [firstChecked?, Call.checked?]

theorem refusal?_eq_none_iff : refusal? id = none ↔ Supported id := by
  rw [supported_iff, refusal?]
  cases find id <;> simp

theorem Remembers.refused_iff_none (h : Remembers calls checker) (id : String) :
    checker.refused.get? id = none ↔ firstChecked? calls id = none ∨ Supported id := by
  rw [h.refused]
  cases hfirst : firstChecked? calls id with
  | none => simp
  | some asked =>
    have hsame := sameType_of_firstChecked? hfirst
    simp [refusal?_eq_none_iff, supported_iff_of_sameType hsame]

theorem Remembers.datatype (h : Remembers calls checker) (id : String) :
    Remembers (calls ++ [.datatype id]) (checker.datatype id).2 where
  known key type := by
    have hasked := known_datatype h.known (fun a b hab ⟨call, hmem, ha⟩ ↦ ⟨call, hmem, ha.trans hab⟩)
    simpa [Call.id, or_and_right, exists_or] using hasked id key type
  refused key := by rw [refused_datatype, firstChecked?_datatype, h.refused]

theorem refusal?_eq_some_iff {found : List Diagnostic} :
    refusal? id = some found ↔ ∃ fault, find id = .error fault ∧ found = [fault.report] := by
  unfold refusal?
  cases find id <;> simp [eq_comm]

theorem Remembers.sound (h : Remembers calls checker) : checker.Sound where
  known key type hkey := ((h.known key type).1 hkey).1
  refused key found hkey := by
    rw [h.refused, Option.bind_eq_some_iff] at hkey
    obtain ⟨asked, hasked, hfound⟩ := hkey
    obtain ⟨fault, hfault, rfl⟩ := refusal?_eq_some_iff.1 hfound
    exact ⟨asked, fault, mem_spellings_iff.2 (sameType_of_firstChecked? hasked), hfault, rfl⟩

/-- What was refused stays refused in the same words, and a type that is new is refused if need be. -/
theorem Remembers.bind_firstChecked?_validate (h : Remembers calls checker) (value id key : String) :
    (firstChecked? (calls ++ [.validate value id]) key).bind refusal? =
      if SameType id key ∧ checker.refused.get? id = none then refusal? id
      else checker.refused.get? key := by
  rw [firstChecked?_validate, h.refused, h.refused]
  by_cases hsame : SameType id key
  · rw [← firstChecked?_congr hsame]
    cases hfirst : firstChecked? calls id with
    | none => simp [hsame]
    | some asked =>
      have hasked := sameType_of_firstChecked? hfirst
      cases hrefusal : refusal? asked with
      | none =>
        have hid : refusal? id = none := by
          rw [refusal?_eq_none_iff] at hrefusal ⊢
          exact (supported_iff_of_sameType hasked).2 hrefusal
        simp [hsame, hrefusal, hid]
      | some found => simp [hrefusal]
  · simp [hsame]

theorem datatype_of_not_supported (checker : Checker) (h : ¬ Supported id) :
    (checker.datatype id).2 = checker := by
  unfold Checker.datatype
  split
  · rfl
  · split
    · rfl
    next hfind => exact absurd (supported_iff.2 ⟨_, hfind⟩) h

theorem Remembers.not_supported (h : Remembers calls checker) (hrefused : checker.refused.get? id ≠ none) :
    ¬ Supported id :=
  fun hsupported ↦ hrefused ((h.refused_iff_none id).2 (.inr hsupported))

theorem Remembers.known_validate (h : Remembers calls checker) (value id : String) :
    (checker.validate value id).2.known = (checker.datatype id).2.known := by
  cases hrefused : checker.refused.get? id with
  | some found =>
    have hsupported : ¬ Supported id := h.not_supported (by simp [hrefused])
    rw [validate_of_refused hrefused, datatype_of_not_supported checker hsupported]
  | none =>
    rw [h.sound.validate_of_new hrefused]
    cases hfind : find id with
    | error fault => rw [h.sound.datatype_of_error hfind]
    | ok type => rfl

theorem Remembers.refused_validate (h : Remembers calls checker) (value id key : String) :
    (checker.validate value id).2.refused.get? key =
      if SameType id key ∧ checker.refused.get? id = none then refusal? id
      else checker.refused.get? key := by
  cases hrefused : checker.refused.get? id with
  | some found => simp [validate_of_refused hrefused]
  | none =>
    rw [h.sound.validate_of_new hrefused]
    cases hfind : find id with
    | error fault =>
      dsimp only
      rw [OrderedMap.get?_foldl_insert]
      simp only [mem_spellings_iff, refusal?, hfind, and_true]
    | ok type =>
      dsimp only
      rw [refused_datatype]
      split
      next hsame =>
        have hsupported : Supported key :=
          (supported_iff_of_sameType hsame.1).2 (supported_iff.2 ⟨type, hfind⟩)
        rw [(h.refused_iff_none key).2 (.inr hsupported), refusal?, hfind]
      next => rfl

theorem Remembers.validate (h : Remembers calls checker) (value id : String) :
    Remembers (calls ++ [.validate value id]) (checker.validate value id).2 where
  known key type := by
    rw [h.known_validate, (h.datatype id).known]
    simp [Call.id]
  refused key := by rw [h.refused_validate, h.bind_firstChecked?_validate]

theorem remembers_after (calls : List Call) : Remembers calls (after calls) := by
  induction calls using List.reverseRecOn with
  | nil => exact ⟨by simp [after, OrderedMap.get?, OrderedMap.empty], fun _ ↦ rfl⟩
  | append_singleton calls call ih =>
    rw [after, List.foldl_append]
    cases call with
    | validate value id => exact ih.validate value id
    | datatype id => exact ih.datatype id

theorem firstChecked?_eq_none_iff : firstChecked? calls id = none ↔
    ∀ value asked, .validate value asked ∈ calls → ¬ SameType asked id := by
  simp only [firstChecked?, List.find?_eq_none, List.mem_filterMap, decide_eq_true_eq]
  constructor
  · intro h value asked hmem
    exact h asked ⟨_, hmem, rfl⟩
  · rintro h asked ⟨call, hmem, hcall⟩
    cases call with
    | validate value id =>
      obtain rfl := Option.some.inj hcall
      exact h value id hmem
    | datatype id => cases hcall

theorem Remembers.isRefused_iff (h : Remembers calls checker) (id : String) :
    checker.isRefused id = true ↔
      ¬ Supported id ∧ ∃ value asked, .validate value asked ∈ calls ∧ SameType asked id := by
  rw [isRefused, Option.isSome_iff_ne_none, ne_eq, h.refused_iff_none, firstChecked?_eq_none_iff]
  push Not
  exact and_comm

theorem mem_knownIds : id ∈ checker.knownIds ↔ ∃ type, checker.known.get? id = some type := by
  rw [knownIds, List.mem_mergeSort, OrderedMap.mem_keys_iff]

theorem Remembers.mem_knownIds_iff (h : Remembers calls checker) (id : String) :
    id ∈ checker.knownIds ↔ Supported id ∧ ∃ call ∈ calls, SameType call.id id := by
  simp only [mem_knownIds, h.known, supported_iff, exists_and_right]

theorem pairwise_knownIds (checker : Checker) : checker.knownIds.Pairwise (· < ·) := by
  have hsorted : checker.knownIds.Pairwise fun a b ↦ decide (a ≤ b) = true :=
    List.pairwise_mergeSort (fun a b c ↦ by simpa using le_trans) (fun a b ↦ by simpa using le_total a b) _
  have hnodup : checker.knownIds.Nodup :=
    (List.mergeSort_perm _ _).nodup_iff.2 checker.known.nodup_keys
  exact hsorted.imp₂ (fun a b hle hne ↦ lt_of_le_of_ne (of_decide_eq_true hle) hne) hnodup

theorem find_firstChecked? (hsupported : Supported id) :
    find ((firstChecked? calls id).getD id) = find id := by
  cases hfirst : firstChecked? calls id with
  | none => rfl
  | some asked =>
    obtain ⟨type, htype⟩ := supported_iff.1 hsupported
    rw [Option.getD_some, htype,
      ← find_eq_ok_iff_of_sameType (sameType_of_firstChecked? hfirst), htype]

/-- The answer to a call, as a new checker gives it on the identifier that was checked against first. -/
theorem Remembers.validate_fst (h : Remembers calls checker) (value id : String) :
    (checker.validate value id).1 =
      (({} : Checker).validate value ((firstChecked? calls id).getD id)).1 := by
  cases hrefused : checker.refused.get? id with
  | some found =>
    rw [validate_of_refused hrefused, validate_empty]
    rw [h.refused, Option.bind_eq_some_iff] at hrefused
    obtain ⟨asked, hasked, hfound⟩ := hrefused
    obtain ⟨fault, hfault, rfl⟩ := refusal?_eq_some_iff.1 hfound
    rw [hasked, Option.getD_some, hfault]
  | none =>
    rw [h.sound.validate_fst_of_new hrefused]
    rcases (h.refused_iff_none id).1 hrefused with hfirst | hsupported
    · rw [hfirst, Option.getD_none]
    · rw [validate_empty, validate_empty, find_firstChecked? hsupported]

theorem report_of_find_error {fault : Fault} (h : find id = .error fault) :
    ∃ message, fault.report = { kind := .unsupportedFeature, message } := by
  unfold find at h
  split at h
  · obtain rfl := Except.error.inj h
    exact ⟨_, rfl⟩
  · split at h
    · obtain rfl := Except.error.inj h
      exact ⟨_, rfl⟩
    · cases h

theorem validate_empty_of_supported (value : String) (h : Supported id) :
    (({} : Checker).validate value id).1 = [] ∨
      ∃ d, (({} : Checker).validate value id).1 = [d] ∧ d.kind = .dataError := by
  obtain ⟨type, htype⟩ := supported_iff.1 h
  rw [validate_empty, htype]
  dsimp only
  split
  · exact .inl rfl
  · exact .inr ⟨_, rfl, rfl⟩

theorem validate_empty_of_not_supported (value : String) (h : ¬ Supported id) :
    ∃ message, (({} : Checker).validate value id).1 = [{ kind := .unsupportedFeature, message }] := by
  rw [validate_empty]
  cases hfind : find id with
  | error fault =>
    obtain ⟨message, hreport⟩ := report_of_find_error hfind
    exact ⟨message, congrArg ([·]) hreport⟩
  | ok type => exact absurd (supported_iff.2 ⟨type, hfind⟩) h

/-- What a checker finds after some calls, compared with what a new one finds in the same value. A refusal
may differ in its message, which names the type as it was when a value was first checked against it. -/
structure AnswersAsNew (calls : List Call) (value id : String) (found : List Diagnostic) : Prop where
  supported : Supported id → found = (({} : Checker).validate value id).1 ∧
    (found = [] ∨ ∃ d, found = [d] ∧ d.kind = .dataError)
  unsupported : ¬ Supported id →
    found = (({} : Checker).validate value ((firstChecked? calls id).getD id)).1 ∧
      ∃ d message, found = [d] ∧ d.kind = .unsupportedFeature ∧
        (({} : Checker).validate value id).1 = [{ d with message }]

theorem Remembers.answersAsNew (h : Remembers calls checker) (value id : String) :
    AnswersAsNew calls value id (checker.validate value id).1 where
  supported hsupported := by
    have hfound : (checker.validate value id).1 = (({} : Checker).validate value id).1 := by
      rw [h.validate_fst, validate_empty, validate_empty, find_firstChecked? hsupported]
    rw [hfound]
    exact ⟨rfl, validate_empty_of_supported value hsupported⟩
  unsupported hunsupported := by
    have hfirst : ¬ Supported ((firstChecked? calls id).getD id) := by
      cases hfirst : firstChecked? calls id with
      | none => exact hunsupported
      | some asked => rwa [Option.getD_some, ← supported_iff_of_sameType (sameType_of_firstChecked? hfirst)]
    obtain ⟨wording, hfound⟩ := validate_empty_of_not_supported value hfirst
    obtain ⟨message, hnew⟩ := validate_empty_of_not_supported value hunsupported
    rw [h.validate_fst]
    exact ⟨rfl, _, message, hfound, rfl, hnew⟩

/-- Nothing of its history shows in what a checker finds, apart from the wording of a refusal, and what it
remembers is exactly what it was asked. -/
theorem transparent_after (calls : List Call) :
    (∀ value id, AnswersAsNew calls value id ((after calls).validate value id).1) ∧
      (∀ id, ((after calls).datatype id).1 = (({} : Checker).datatype id).1) ∧
      (∀ id, (after calls).isRefused id = true ↔
        ¬ Supported id ∧ ∃ value asked, .validate value asked ∈ calls ∧ SameType asked id) ∧
      (after calls).knownIds.Pairwise (· < ·) ∧
      (∀ id, id ∈ (after calls).knownIds ↔ Supported id ∧ ∃ call ∈ calls, SameType call.id id) ∧
      ∀ id, id ∈ (after calls).knownIds → (after calls).isRefused id = false := by
  have h := remembers_after calls
  refine ⟨h.answersAsNew, fun id ↦ ?_, h.isRefused_iff, pairwise_knownIds _, h.mem_knownIds_iff, ?_⟩
  · rw [h.sound.datatype_fst, sound_empty.datatype_fst]
  · intro id hknown
    rw [Bool.eq_false_iff, ne_eq, h.isRefused_iff]
    exact fun hrefused ↦ hrefused.1 ((h.mem_knownIds_iff id).1 hknown).1

theorem after_wrench :
    let checker := after [.validate "4" (namespaceIri ++ "wrench"), .datatype "xsd:integer"]
    ¬ Supported "xsd:wrench" ∧ checker.isRefused "xsd:wrench" = true ∧
      (checker.validate "5" "xsd:wrench").1 =
        [{ kind := .unsupportedFeature, message := "Unsupported xsd type " ++ namespaceIri ++ "wrench" }] ∧
      namespaceIri ++ "integer" ∈ checker.knownIds ∧
      checker.isRefused (namespaceIri ++ "integer") = false := by
  intro checker
  obtain ⟨hanswers, -, hrefused, -, hknown, hseparate⟩ :=
    transparent_after [.validate "4" (namespaceIri ++ "wrench"), .datatype "xsd:integer"]
  have hwrench : ¬ Supported "xsd:wrench" := by
    rw [supported_iff]
    rintro ⟨type, htype⟩
    cases htype
  have hinteger : namespaceIri ++ "integer" ∈ checker.knownIds :=
    (hknown _).2 ⟨⟨.integer, .inr rfl⟩, .datatype "xsd:integer", by simp, .inFull "integer"⟩
  refine ⟨hwrench, (hrefused _).2 ⟨hwrench, "4", _, by simp, .qualified "wrench"⟩, ?_, hinteger,
    hseparate _ hinteger⟩
  exact ((hanswers "5" "xsd:wrench").unsupported hwrench).1.trans (by decide +kernel)

end Checker

end OntologyGuard.Xsd
