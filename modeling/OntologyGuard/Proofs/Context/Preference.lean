import Mathlib.Data.List.Induction
import Mathlib.Data.List.MinMax
import OntologyGuard.Proofs.Context

namespace OntologyGuard.Context

variable {new best qualifier iri : String} {found : List String} {bindings : List (String × String)}

/-- An empty qualifier is the worst, and one that ends in a digit, as generated ones do, is the next. -/
def rank (qualifier : String) : Nat :=
  if qualifier.isEmpty then 0 else if endsInDigit qualifier then 1 else 2

theorem supersedes_some_iff : supersedes new (some best) = true ↔ rank best ≤ rank new := by
  simp only [supersedes, rank]
  cases best.isEmpty <;> cases new.isEmpty <;> cases endsInDigit best <;> cases endsInDigit new <;> simp

/-- The better of two qualifiers of a namespace, which is the new one if both are as good. -/
def choose (best : Option String) (new : String) : Option String :=
  if supersedes new best then some new else best

def bestRanked (found : List String) : List String :=
  found.filter fun qualifier ↦ found.all fun other ↦ rank other ≤ rank qualifier

theorem mem_bestRanked_iff :
    qualifier ∈ bestRanked found ↔ qualifier ∈ found ∧ ∀ other ∈ found, rank other ≤ rank qualifier := by
  simp [bestRanked]

theorem bestRanked_eq_nil_iff : bestRanked found = [] ↔ found = [] := by
  constructor
  · intro h
    rw [← List.argmax_eq_none (f := rank)]
    refine Option.eq_none_iff_forall_not_mem.2 fun best hbest ↦ ?_
    have hmem : best ∈ bestRanked found :=
      mem_bestRanked_iff.2 ⟨List.argmax_mem hbest, fun other hother ↦ List.le_of_mem_argmax hother hbest⟩
    exact List.ne_nil_of_mem hmem h
  · rintro rfl
    rfl

theorem getLast?_bestRanked_append (h : ∀ other ∈ found, rank other ≤ rank new) :
    (bestRanked (found ++ [new])).getLast? = some new := by
  rw [bestRanked, List.filter_append, List.filter_cons_of_pos (by simpa using h), List.filter_nil,
    List.getLast?_concat]

theorem bestRanked_append_of_lt {other : String} (hmem : other ∈ found) (h : rank new < rank other) :
    bestRanked (found ++ [new]) = bestRanked found := by
  rw [bestRanked, List.filter_append, List.filter_cons_of_neg (by simpa using ⟨other, hmem, h⟩), List.filter_nil,
    List.append_nil]
  refine List.filter_congr fun qualifier _ ↦ ?_
  have hnew (hall : found.all (fun other ↦ rank other ≤ rank qualifier) = true) : rank new ≤ rank qualifier := by
    have hother := of_decide_eq_true (List.all_eq_true.1 hall other hmem)
    omega
  rw [List.all_append, List.all_cons, List.all_nil, Bool.and_true, Bool.and_eq_left_iff_imp]
  exact fun hall ↦ decide_eq_true (hnew hall)

theorem foldl_choose (found : List String) : found.foldl choose none = (bestRanked found).getLast? := by
  induction found using List.reverseRecOn with
  | nil => rfl
  | append_singleton found new ih =>
    rw [List.foldl_append, ih, List.foldl_cons, List.foldl_nil]
    cases hlast : (bestRanked found).getLast? with
    | none =>
      obtain rfl := bestRanked_eq_nil_iff.1 (List.getLast?_eq_none_iff.1 hlast)
      exact (getLast?_bestRanked_append (by simp)).symm
    | some best =>
      obtain ⟨hmem, hbest⟩ := mem_bestRanked_iff.1 (List.mem_of_getLast? hlast)
      by_cases hnew : rank best ≤ rank new
      · rw [choose, if_pos (supersedes_some_iff.2 hnew)]
        exact (getLast?_bestRanked_append fun other hother ↦ (hbest other hother).trans hnew).symm
      · rw [choose, if_neg (mt supersedes_some_iff.1 hnew), bestRanked_append_of_lt hmem (Nat.not_le.1 hnew),
          hlast]

def qualifiersOf (bindings : List (String × String)) (iri : String) : List String :=
  (bindings.filter fun binding ↦ binding.2 = iri).map Prod.fst

def namespacesOf (bindings : List (String × String)) (qualifier : String) : List String :=
  (bindings.filter fun binding ↦ binding.1 = qualifier).map Prod.snd

theorem mem_qualifiersOf_iff : qualifier ∈ qualifiersOf bindings iri ↔ (qualifier, iri) ∈ bindings := by
  simp [qualifiersOf]

theorem qualifier?_bind (c : Context) (new bound iri : String) :
    (c.bind new bound).qualifier? iri =
      if bound = iri then choose (c.qualifier? iri) new else c.qualifier? iri := by
  simp only [qualifier?, bind, choose]
  by_cases h : bound = iri
  · subst h
    by_cases hnew : supersedes new (c.preferred.get? bound) <;> simp [hnew]
  · by_cases hnew : supersedes new (c.preferred.get? bound) <;> simp [hnew, h, Ne.symm h]

theorem qualifier?_populate (c : Context) (bindings : List (String × String)) (iri : String) :
    (c.populate bindings).qualifier? iri = (qualifiersOf bindings iri).foldl choose (c.qualifier? iri) := by
  induction bindings generalizing c with
  | nil => rfl
  | cons binding rest ih =>
    rw [show c.populate (binding :: rest) = (c.bind binding.1 binding.2).populate rest from rfl, ih,
      qualifier?_bind]
    by_cases h : binding.2 = iri <;> simp [qualifiersOf, h]

theorem qualifier?_ofBindings (bindings : List (String × String)) (iri : String) :
    (ofBindings bindings).qualifier? iri =
      (bestRanked (qualifiersOf (standardBindings ++ bindings) iri)).getLast? := by
  have hpopulate : ofBindings bindings = ({} : Context).populate (standardBindings ++ bindings) :=
    List.foldl_append.symm
  rw [hpopulate, qualifier?_populate, ← foldl_choose]
  rfl

theorem getLast?_namespacesOf (bindings : List (String × String)) (qualifier : String) :
    (namespacesOf bindings qualifier).getLast? = bindings.reverse.lookup qualifier := by
  induction bindings using List.reverseRecOn with
  | nil => rfl
  | append_singleton bindings binding ih =>
    rw [List.reverse_append, List.reverse_singleton, List.singleton_append,
      show binding = (binding.1, binding.2) from rfl, OrderedMap.lookup_cons_if, ← ih]
    by_cases h : binding.1 = qualifier
    · simp [namespacesOf, h]
    · simp [namespacesOf, h, Ne.symm h]

/-- Of all qualifiers that were ever bound to a namespace the last one of the best rank is preferred, and a
qualifier stands for the namespace that it was last bound to. The standard bindings come first. -/
theorem preferred_eq_last_of_best (bindings : List (String × String)) :
    (∀ iri, ((ofBindings bindings).qualifier? iri = none ↔
        ∀ qualifier, (qualifier, iri) ∉ standardBindings ++ bindings) ∧
      (ofBindings bindings).qualifier? iri =
        (bestRanked (qualifiersOf (standardBindings ++ bindings) iri)).getLast?) ∧
    ∀ qualifier, (ofBindings bindings).namespace? qualifier =
      (namespacesOf (standardBindings ++ bindings) qualifier).getLast? := by
  refine ⟨fun iri ↦ ⟨?_, qualifier?_ofBindings bindings iri⟩, fun qualifier ↦ ?_⟩
  · rw [qualifier?_ofBindings, List.getLast?_eq_none_iff, bestRanked_eq_nil_iff, List.eq_nil_iff_forall_not_mem]
    simp only [mem_qualifiersOf_iff]
  · rw [namespace?_ofBindings, getLast?_namespacesOf]

end OntologyGuard.Context
