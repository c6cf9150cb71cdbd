import Mathlib.Data.String.Basic
import OntologyGuard.Proofs.Context
import OntologyGuard.Proofs.Text.Split

/-!
What a printed name stands for. A name that abbreviates an identifier expands to it again exactly when the
preferred qualifier of its namespace was bound to no other namespace since.
-/

namespace OntologyGuard.Context

variable {c : Context} {id iri qualifier : String}

/-- The preferred qualifier of a namespace was bound to it at some time. -/
def PrefersBound (c : Context) : Prop :=
  ∀ iri qualifier, c.qualifier? iri = some qualifier → (qualifier, iri) ∈ c.bindings

theorem PrefersBound.bind (h : c.PrefersBound) (qualifier iri : String) :
    (c.bind qualifier iri).PrefersBound := by
  have hkept (iri' old : String) (hold : c.preferred.get? iri' = some old) :
      (old, iri') ∈ c.bindings ++ [(qualifier, iri)] :=
    List.mem_append_left _ (h iri' old hold)
  intro iri' preferred hpreferred
  simp only [qualifier?, Context.bind] at hpreferred ⊢
  split at hpreferred
  · rw [OrderedMap.get?_insert] at hpreferred
    split at hpreferred
    next heq =>
      obtain rfl := Option.some.inj hpreferred
      simp [heq]
    next => exact hkept iri' preferred hpreferred
  · exact hkept iri' preferred hpreferred

theorem PrefersBound.populate (h : c.PrefersBound) (bindings : List (String × String)) :
    (c.populate bindings).PrefersBound := by
  induction bindings generalizing c with
  | nil => exact h
  | cons binding rest ih => exact ih (h.bind binding.1 binding.2)

theorem bindings_populate (c : Context) (bindings : List (String × String)) :
    (c.populate bindings).bindings = c.bindings ++ bindings := by
  induction bindings generalizing c with
  | nil => exact (List.append_nil _).symm
  | cons binding rest ih =>
    rw [show c.populate (binding :: rest) = (c.bind binding.1 binding.2).populate rest from rfl, ih,
      Context.bind, List.append_assoc]
    rfl

/-- A namespace, if it is one, that was bound and that the identifier starts with. -/
def Fits (c : Context) (id : String) (best : Option String) : Prop :=
  ∀ iri, best = some iri → iri ∈ c.preferred.keys ∧ Text.startsWith id iri = true

theorem fits_namespaceOf? (c : Context) (id : String) : c.Fits id (c.namespaceOf? id) := by
  refine List.foldlRecOn (motive := c.Fits id) c.preferred.keys _ (by rintro iri ⟨⟩)
    fun best hbest key hkey ↦ ?_
  split
  next hfits =>
    simp only [Bool.and_eq_true] at hfits
    rintro _ ⟨⟩
    exact ⟨hkey, hfits.1.2⟩
  next => exact hbest

theorem splitQualified?_qualified (hcolon : ':' ∉ qualifier.toList)
    (hbound : c.namespace? qualifier = some iri) (name : String) :
    c.splitQualified? (qualifier ++ ":" ++ name) = some (qualifier, name) := by
  have hsplit : Text.splitOnce? ':' (qualifier ++ ":" ++ name) = some (qualifier, name) :=
    Text.splitOnce?_eq_some_iff.2 ⟨by simp, hcolon⟩
  simp [splitQualified?, hsplit, hbound]

section Bindings

variable {bindings : List (String × String)}

/-- A namespace is the one that a qualifier was bound to last, the standard bindings coming first. -/
def LastBinding (bindings : List (String × String)) (qualifier iri : String) : Prop :=
  (standardBindings ++ bindings).reverse.lookup qualifier = some iri

instance (qualifier iri : String) : Decidable (LastBinding bindings qualifier iri) :=
  inferInstanceAs (Decidable ((standardBindings ++ bindings).reverse.lookup qualifier = some iri))

theorem namespace?_eq_some_iff : (ofBindings bindings).namespace? qualifier = some iri ↔
    LastBinding bindings qualifier iri := by
  rw [namespace?_ofBindings, LastBinding]

theorem mem_of_qualifier? (h : (ofBindings bindings).qualifier? iri = some qualifier) :
    (qualifier, iri) ∈ standardBindings ++ bindings := by
  have hempty : PrefersBound {} := by rintro iri qualifier ⟨⟩
  have hmem := (hempty.populate standardBindings).populate bindings iri qualifier h
  rwa [bindings_populate, bindings_populate] at hmem

theorem exists_lastBinding (h : (qualifier, iri) ∈ standardBindings ++ bindings) :
    ∃ last, LastBinding bindings qualifier last := by
  unfold LastBinding
  rw [← Option.isSome_iff_exists, Option.isSome_iff_ne_none, ne_eq, List.lookup_eq_none_iff]
  intro hnone
  simpa using hnone (qualifier, iri) (List.mem_reverse.2 h)

def ColonFree (bindings : List (String × String)) : Prop := ∀ binding ∈ bindings, ':' ∉ binding.1.toList

instance : Decidable (ColonFree bindings) :=
  inferInstanceAs (Decidable (∀ binding ∈ bindings, ':' ∉ binding.1.toList))

theorem colonFree_append (h : ColonFree bindings) : ColonFree (standardBindings ++ bindings) := by
  have hstandard : ColonFree standardBindings := by decide
  intro binding hmem
  exact (List.mem_append.1 hmem).elim (hstandard binding) (h binding)

/-- Of an identifier that is printed as a qualified name either the name is the identifier itself, or it
puts the preferred qualifier in the place of the longest namespace that fits. -/
theorem qualifiedName?_eq_some {q : String} (h : c.qualifiedName? id = some q) :
    (c.splitQualified? id).isSome ∧ q = id ∨
      c.splitQualified? id = none ∧ ∃ iri qualifier name, c.namespaceOf? id = some iri ∧
        c.qualifier? iri = some qualifier ∧ id = iri ++ name ∧ q = qualifier ++ ":" ++ name := by
  unfold qualifiedName? at h
  split at h
  next hsplit => exact .inl ⟨hsplit, (Option.some.inj h).symm⟩
  next hsplit =>
    simp only [splitIri?, Option.bind_eq_bind, Option.bind_eq_some_iff, Option.map_eq_some_iff] at h
    obtain ⟨_, ⟨iri, hiri, rfl⟩, qualifier, hqualifier, hq⟩ := h
    have hid := Text.eq_append_of_startsWith (fits_namespaceOf? c id iri hiri).2
    exact .inr ⟨Option.not_isSome_iff_eq_none.1 hsplit, iri, qualifier, _, hiri, hqualifier, hid,
      (Option.some.inj hq).symm⟩

theorem expand?_of_namespaceOf? (hsplit : c.splitQualified? id = none) (h : c.namespaceOf? id = some iri) :
    c.expand? id = some id := by
  simp [expand?, splitIri?, hsplit, h]

theorem expand?_qualified (hcolon : ':' ∉ qualifier.toList) {last : String}
    (hlast : c.namespace? qualifier = some last) (name : String) :
    c.expand? (qualifier ++ ":" ++ name) = some (last ++ name) := by
  simp [expand?, splitQualified?_qualified hcolon hlast, hlast]

/-- An identifier is printed as it is, or in its namespace's stead with a qualifier that was bound to that
namespace and to another one, perhaps, later. -/
theorem expand?_of_qualifiedName? (hcolon : ColonFree bindings) {q : String}
    (h : (ofBindings bindings).qualifiedName? id = some q) :
    ((ofBindings bindings).splitQualified? id).isSome ∧ q = id ∨
      ((ofBindings bindings).splitQualified? id).isSome = false ∧ ∃ iri qualifier name last,
        (ofBindings bindings).namespaceOf? id = some iri ∧
        (ofBindings bindings).qualifier? iri = some qualifier ∧ LastBinding bindings qualifier last ∧
        (ofBindings bindings).expand? id = some (iri ++ name) ∧
        (ofBindings bindings).expand? q = some (last ++ name) := by
  rcases qualifiedName?_eq_some h with
    hself | ⟨hsplit, iri, qualifier, name, hiri, hqualifier, rfl, rfl⟩
  · exact .inl hself
  · have hmem := mem_of_qualifier? hqualifier
    obtain ⟨last, hlast⟩ := exists_lastBinding hmem
    have hid := expand?_of_namespaceOf? hsplit hiri
    have hq := expand?_qualified (colonFree_append hcolon _ hmem) (namespace?_eq_some_iff.2 hlast) name
    exact .inr ⟨by rw [hsplit]; rfl, iri, qualifier, name, last, hiri, hqualifier, hlast, hid, hq⟩

/-- A printed name denotes what it was printed for exactly when the identifier is printed as it is, or the
preferred qualifier of its namespace still stands for that namespace. -/
theorem expand?_eq_iff_lastBinding (hcolon : ColonFree bindings) {q : String}
    (h : (ofBindings bindings).qualifiedName? id = some q) :
    (ofBindings bindings).expand? q = (ofBindings bindings).expand? id ↔
      ((ofBindings bindings).splitQualified? id).isSome ∨
        ∃ iri qualifier, (ofBindings bindings).namespaceOf? id = some iri ∧
          (ofBindings bindings).qualifier? iri = some qualifier ∧ LastBinding bindings qualifier iri := by
  rcases expand?_of_qualifiedName? hcolon h with
    ⟨hsplit, rfl⟩ | ⟨hsplit, iri, qualifier, name, last, hiri, hqualifier, hlast, hid, hq⟩
  · exact iff_of_true rfl (.inl hsplit)
  · rw [hid, hq, hsplit, Option.some.injEq, String.append_left_inj]
    constructor
    · rintro rfl
      exact .inr ⟨last, qualifier, hiri, hqualifier, hlast⟩
    · rintro (⟨⟨⟩⟩ | ⟨iri', qualifier', hiri', hqualifier', hlast'⟩)
      obtain rfl := Option.some.inj (hiri.symm.trans hiri')
      obtain rfl := Option.some.inj (hqualifier.symm.trans hqualifier')
      exact Option.some.inj (hlast.symm.trans hlast')

theorem expand?_eq_of_regained :
    let c := ofBindings [("ex", "http://example.org/a/"), ("ex", "http://example.org/b/"),
      ("new", "http://example.org/a/")]
    c.qualifiedName? "http://example.org/a/x" = some "new:x" ∧
      c.expand? "new:x" = c.expand? "http://example.org/a/x" := by
  intro c
  have hname : c.qualifiedName? "http://example.org/a/x" = some "new:x" := by decide +kernel
  refine ⟨hname, (expand?_eq_iff_lastBinding (by decide) hname).2 (.inr ?_)⟩
  exact ⟨"http://example.org/a/", "new", by decide +kernel, by decide +kernel,
    by decide +kernel⟩

/-- After a qualifier was bound to a second namespace, names in the first are still printed with it. -/
theorem misleading_of_rebound :
    let bindings := [("ex", "http://example.org/a/"), ("ex", "http://example.org/b/")]
    let c := ofBindings bindings
    ColonFree bindings ∧ c.qualifiedName? "http://example.org/a/x" = some "ex:x" ∧
      c.expand? "ex:x" = some "http://example.org/b/x" ∧
      c.expand? "http://example.org/a/x" = some "http://example.org/a/x" := by
  decide +kernel

end Bindings

end OntologyGuard.Context
