import OntologyGuard.Proofs.Data.Outcome
import OntologyGuard.Storage.FileSystem

namespace OntologyGuard

def Entry.find? : Entry → List Name → Option Entry
  | .folder inner, names => inner.find? names
  | .leaf found, [] => some (.leaf found)
  | .leaf _, _ :: _ => none

namespace Directory

variable {root inner : Directory} {place : List Name} {name : Name} {content : Bytes}

theorem find?_cons (root : Directory) (name : Name) (more : List Name) :
    root.find? (name :: more) = Option.bind ( root.entry? name) (·.find? more) := by
  cases hentry : root.entry? name with
  | none => cases more <;> simp [find?, hentry]
  | some entry => cases entry <;> cases more <;> simp [find?, hentry, Entry.find?]

theorem find?_append (root : Directory) (front back : List Name) :
    root.find? (front ++ back) = (root.find? front).bind (·.find? back) := by
  induction front generalizing root with
  | nil => rfl
  | cons name rest ih =>
    rw [List.cons_append, find?_cons, find?_cons, Option.bind_assoc]
    congr 1
    funext entry
    cases entry with
    | folder inner => exact ih inner
    | leaf found => cases rest <;> rfl

theorem find?_concat (h : root.find? place = some (.folder inner)) (name : Name) :
    root.find? (place ++ [name]) = inner.entry? name := by
  rw [find?_append, h]
  rfl

/-- Leaves and directories are often the same to a proof. -/
@[elab_as_elim]
theorem cons_induction {motive : Directory → Prop} (empty : motive .empty)
    (cons : ∀ name entry rest, motive rest → motive (cons name entry rest)) (root : Directory) : motive root := by
  induction root with
  | empty => exact empty
  | leaf name found rest ih => exact cons name (.leaf found) rest ih
  | folder name inner rest _ ih => exact cons name (.folder inner) rest ih

theorem entry?_cons (name : Name) (entry : Entry) (rest : Directory) (n : Name) :
    entry? n (cons name entry rest) = if name = n then some entry else rest.entry? n := by
  cases entry <;> rfl

theorem put_cons (name : Name) (entry : Entry) (n : Name) (e : Entry) (rest : Directory) :
    (cons n e rest).put name entry =
      if n = name then cons name entry rest
      else if name < n then cons name entry (cons n e rest)
      else cons n e (rest.put name entry) := by
  cases e <;> rfl

theorem entry?_put (root : Directory) (name : Name) (entry : Entry) (n : Name) :
    entry? n (root.put name entry) = if name = n then some entry else root.entry? n := by
  induction root using cons_induction with
  | empty => exact entry?_cons name entry empty n
  | cons m e rest ih =>
    rw [put_cons]
    by_cases hm : m = name
    · rw [if_pos hm, entry?_cons, entry?_cons, hm]
      split <;> rfl
    · rw [if_neg hm]
      split
      · exact entry?_cons name entry _ n
      · rw [entry?_cons, ih, entry?_cons]
        by_cases hn : name = n
        · subst hn
          simp [hm]
        · simp [hn]

/-- What was a directory still is one, and no path that led anywhere leads nowhere. -/
structure Keeps (before after : Directory) : Prop where
  folder : ∀ names inner, before.find? names = some (.folder inner) →
    ∃ inner', after.find? names = some (.folder inner')
  locked : ∀ names, before.find? names = some (.locked true) → after.find? names = some (.locked true)
  present : ∀ names entry, before.find? names = some entry →
    ∃ entry', after.find? names = some entry'

theorem exists_entry?_of_find? {next : Name} {more : List Name}
    (h : root.find? (next :: more) = some (.folder inner)) :
    ∃ sub, root.entry? next = some (.folder sub) ∧ sub.find? more = some (.folder inner) := by
  rw [find?_cons] at h
  obtain ⟨entry, hentry, hmore⟩ := Option.bind_eq_some_iff.1 h
  cases entry with
  | folder sub => exact ⟨sub, hentry, hmore⟩
  | leaf found => cases more <;> cases hmore

/-- A place is free for a file if there is nothing, or a file. -/
def IsFree (root : Directory) (name : Name) : Prop :=
  ∀ entry, root.entry? name = some entry → ∃ old, entry = .file old

theorem IsFree.find?_cons (h : root.IsFree name) {more : List Name} {entry : Entry}
    (hfind : root.find? (name :: more) = some entry) : more = [] ∧ ∃ old, entry = .file old := by
  rw [Directory.find?_cons] at hfind
  obtain ⟨found, hfound, hmore⟩ := Option.bind_eq_some_iff.1 hfind
  obtain ⟨old, rfl⟩ := h found hfound
  cases more with
  | nil => exact ⟨rfl, old, (Option.some.inj hmore).symm⟩
  | cons _ _ => cases hmore

theorem keeps_put (hname : root.IsFree name) : Keeps root (root.put name (.file content)) := by
  have hother {n : Name} {more : List Name} {entry : Entry} (hfind : root.find? (n :: more) = some entry)
      (hentry : ∀ old, entry ≠ .file old) :
      (root.put name (.file content)).find? (n :: more) = some entry := by
    have hne : name ≠ n := by
      rintro rfl
      obtain ⟨-, old, heq⟩ := hname.find?_cons hfind
      exact hentry old heq
    rw [find?_cons, entry?_put, if_neg hne, ← find?_cons, hfind]
  constructor
  · intro names inner hfind
    cases names with
    | nil => exact ⟨_, rfl⟩
    | cons n more => exact ⟨inner, hother hfind (by simp)⟩
  · intro names hfind
    cases names with
    | nil => cases hfind
    | cons n more => exact hother hfind (by simp)
  · intro names entry hfind
    cases names with
    | nil => exact ⟨_, rfl⟩
    | cons n more =>
      by_cases hn : name = n
      · subst hn
        obtain ⟨rfl, -⟩ := hname.find?_cons hfind
        exact ⟨.file content, by rw [find?_cons, entry?_put, if_pos rfl]; rfl⟩
      · exact ⟨entry, by rw [find?_cons, entry?_put, if_neg hn, ← find?_cons, hfind]⟩

theorem Keeps.put {next : Name} {sub sub' : Directory} (hentry : root.entry? next = some (.folder sub))
    (h : Keeps sub sub') : Keeps root (root.put next (.folder sub')) := by
  have hbelow (more : List Name) : root.find? (next :: more) = sub.find? more ∧
      (root.put next (.folder sub')).find? (next :: more) = sub'.find? more := by
    rw [find?_cons, find?_cons, entry?_put, if_pos rfl, hentry]
    exact ⟨rfl, rfl⟩
  have hother {n : Name} (hn : next ≠ n) (more : List Name) :
      (root.put next (.folder sub')).find? (n :: more) = root.find? (n :: more) := by
    rw [find?_cons, find?_cons, entry?_put, if_neg hn]
  constructor
  · intro names inner hfind
    cases names with
    | nil => exact ⟨_, rfl⟩
    | cons n more =>
      by_cases hn : next = n
      · subst hn
        rw [(hbelow more).1] at hfind
        rw [(hbelow more).2]
        exact h.folder more inner hfind
      · exact ⟨inner, (hother hn more).trans hfind⟩
  · intro names hfind
    cases names with
    | nil => cases hfind
    | cons n more =>
      by_cases hn : next = n
      · subst hn
        rw [(hbelow more).1] at hfind
        rw [(hbelow more).2]
        exact h.locked more hfind
      · exact (hother hn more).trans hfind
  · intro names entry hfind
    cases names with
    | nil => exact ⟨_, rfl⟩
    | cons n more =>
      by_cases hn : next = n
      · subst hn
        rw [(hbelow more).1] at hfind
        rw [(hbelow more).2]
        exact h.present more entry hfind
      · exact ⟨entry, (hother hn more).trans hfind⟩

theorem putAt_cons {next : Name} {more : List Name} {sub : Directory} (entry : Entry)
    (hentry : root.entry? next = some (.folder sub)) :
    root.putAt name entry (next :: more) = root.put next (.folder (sub.putAt name entry more)) := by
  simp only [putAt, hentry]

theorem keeps_putAt (hplace : root.find? place = some (.folder inner)) (hname : inner.IsFree name) :
    Keeps root (root.putAt name (.file content) place) := by
  induction place generalizing root with
  | nil =>
    obtain rfl : root = inner := by simpa [find?] using hplace
    exact keeps_put hname
  | cons next more ih =>
    obtain ⟨sub, hentry, hmore⟩ := exists_entry?_of_find? hplace
    rw [putAt_cons _ hentry]
    exact (ih hmore).put hentry

theorem find?_putAt (entry : Entry) (hplace : root.find? place = some (.folder inner)) :
    (root.putAt name entry place).find? (place ++ [name]) = some entry := by
  induction place generalizing root with
  | nil => simp [putAt, find?, entry?_put]
  | cons next more ih =>
    obtain ⟨sub, hentry, hmore⟩ := exists_entry?_of_find? hplace
    rw [putAt_cons _ hentry, List.cons_append, find?_cons, entry?_put, if_pos rfl]
    exact ih hmore

end Directory

namespace FileSystem

variable {root root' : Directory} {place components names : List Name} {fs fs' : FileSystem}
  {path : Pathname} {name : Name} {content : Bytes}

theorem follow_append (root : Directory) (place front back : List Name) :
    follow root place (front ++ back) =
      follow root place front >>= fun names ↦ follow root names.reverse back := by
  induction front generalizing place with
  | nil => simp [follow, bind, Except.bind]
  | cons component more ih =>
    simp only [List.cons_append, follow]
    split
    · rfl
    · split
      · exact ih place
      · rfl
    · rfl
    · split
      · exact ih place
      · split
        · exact ih place.tail
        · split
          · rfl
          · rfl
          · exact ih (component :: place)

theorem lookup_eq_ok {inner : Directory} {found : Option Entry} (h : lookup inner name = .ok found) :
    ¬ nameLimit < name.length ∧ inner.entry? name = found := by
  unfold lookup at h
  split at h
  · cases h
  · next hshort => exact ⟨hshort, Except.ok.inj h⟩

/-- A way that can be followed can be followed when more is there. -/
theorem follow_of_keeps (hkeeps : root.Keeps root') (h : follow root place components = .ok names) :
    follow root' place components = .ok names := by
  induction components generalizing place with
  | nil => exact h
  | cons component more ih =>
    simp only [follow] at h ⊢
    split at h
    · cases h
    · next hfind =>
      simp only [hkeeps.locked _ hfind]
      split at h
      · next hstay =>
        rw [if_pos hstay]
        exact ih h
      · cases h
    · cases h
    · next inner hfind =>
      obtain ⟨inner', hfind'⟩ := hkeeps.folder _ _ hfind
      simp only [hfind']
      split at h
      · next hstay =>
        rw [if_pos hstay]
        exact ih h
      · next hgo =>
        rw [if_neg hgo]
        split at h
        · next hup =>
          rw [if_pos hup]
          exact ih h
        · next hdown =>
          rw [if_neg hdown]
          split at h
          · cases h
          · cases h
          · next found hlookup =>
            obtain ⟨hshort, hentry⟩ := lookup_eq_ok hlookup
            have hchild : root.find? (place.reverse ++ [component]) = some found := by
              rw [Directory.find?_concat hfind, hentry]
            obtain ⟨found', hchild'⟩ := hkeeps.present _ _ hchild
            rw [Directory.find?_concat hfind'] at hchild'
            have hlookup' : lookup inner' component = .ok (some found') := by
              rw [lookup, if_neg hshort, hchild']
            simp only [hlookup']
            exact ih h

structure LeadsTo (fs : FileSystem) (path : Pathname) (place : List Name) (name : Name) : Prop where
  passes : checkPath path = .ok ()
  components_eq : ∃ front, FileSystem.components path = front ++ [name] ∧
    follow fs.root (fs.startOf path) front = .ok place
  short : ¬ nameLimit < name.length
  isName : name ≠ [] ∧ name ≠ [dot] ∧ name ≠ [dot, dot]
  place_eq : ∃ inner, fs.root.find? place = some (.folder inner) ∧
    (inner.entry? name = some .sink ∨ inner.IsFree name)

theorem components_ne_nil (path : Pathname) : FileSystem.components path ≠ [] := by
  cases path with
  | nil => simp [FileSystem.components]
  | cons byte rest =>
    simp only [FileSystem.components]
    split
    · simp
    · split <;> simp

theorem exists_last_component
    (h : ¬ ((FileSystem.components path).reverse.dropWhile (·.isEmpty)).reverse.length <
      (FileSystem.components path).length) :
    ∃ front last, FileSystem.components path = front ++ [last] ∧ last ≠ [] ∧
      ((FileSystem.components path).reverse.dropWhile (·.isEmpty)).reverse = front ++ [last] := by
  have hsuffix := List.dropWhile_suffix (l := (FileSystem.components path).reverse) (·.isEmpty)
  have hkept := hsuffix.eq_of_length_le (by simpa using h)
  have hall := (List.dropLast_concat_getLast (components_ne_nil path)).symm
  refine ⟨_, _, hall, ?_, by rw [hkept, List.reverse_reverse, ← hall]⟩
  intro hempty
  rw [hempty] at hall
  rw [hall, List.reverse_append, List.reverse_singleton, List.singleton_append,
    List.dropWhile_cons_of_pos (by decide)] at hkept
  have hlength := (List.dropWhile_suffix (l := (FileSystem.components path).dropLast.reverse)
    (·.isEmpty)).length_le
  rw [hkept, List.length_cons] at hlength
  omega

theorem free_of_checkPut {inner : Directory} (h : fs.checkPut place name (inner.entry? name) = .ok ()) :
    inner.entry? name = some .sink ∨ inner.IsFree name := by
  cases hentry : inner.entry? name with
  | none => exact .inr fun entry hsome ↦ by cases hentry.symm.trans hsome
  | some entry =>
    rw [hentry] at h
    cases entry with
    | folder sub => cases h
    | leaf found =>
      cases found with
      | file old => exact .inr fun entry hsome ↦ ⟨old, (Option.some.inj (hentry.symm.trans hsome)).symm⟩
      | sink => exact .inl rfl
      | locked isFolder => cases isFolder <;> cases h

theorem leadsTo_of_placeOf (h : fs.placeOf path = .ok (place, name)) : fs.LeadsTo path place name := by
  unfold placeOf at h
  obtain ⟨_, hpath, h⟩ := bind_eq_ok h
  obtain ⟨found, hfollow, h⟩ := bind_eq_ok h
  split at h
  · next inner hinner =>
    split at h
    · cases h
    · next hno =>
      rw [not_or, not_or] at hno
      obtain ⟨hslash, hdot, hdots⟩ := hno
      obtain ⟨front, last, hall, hlast, hnames⟩ := exists_last_component hslash
      rw [hnames] at hfollow hdot hdots h
      simp only [List.dropLast_concat, List.getLastD_concat] at hfollow hdot hdots h
      obtain ⟨entry, hlookup, h⟩ := bind_eq_ok h
      obtain ⟨hshort, rfl⟩ := lookup_eq_ok hlookup
      obtain ⟨_, hput, h⟩ := bind_eq_ok h
      obtain ⟨rfl, rfl⟩ := Prod.mk.inj (Except.ok.inj h)
      exact ⟨hpath, ⟨front, hall, hfollow⟩, hshort, ⟨hlast, hdot, hdots⟩, inner, hinner, free_of_checkPut hput⟩
  · cases h
  · cases h
  · cases h

theorem resolve_of_checkPath (h : checkPath path = .ok ()) :
    fs.resolve path = follow fs.root (fs.startOf path) (FileSystem.components path) := by
  rw [resolve, h, ok_bind]

theorem follow_name {inner : Directory} {entry : Entry} (hplace : root.find? place = some (.folder inner))
    (hname : name ≠ [] ∧ name ≠ [dot] ∧ name ≠ [dot, dot]) (hshort : ¬ nameLimit < name.length)
    (hentry : inner.entry? name = some entry) :
    follow root place.reverse [name] = .ok (place ++ [name]) := by
  simp [follow, hplace, lookup, hshort, hname, hentry]

theorem LeadsTo.resolve {inner : Directory} {entry : Entry} (h : fs.LeadsTo path place name)
    (hplace : fs.root.find? place = some (.folder inner)) (hentry : inner.entry? name = some entry) :
    fs.resolve path = .ok (place ++ [name]) := by
  obtain ⟨front, hall, hfollow⟩ := h.components_eq
  rw [resolve_of_checkPath h.passes, hall, follow_append, hfollow, ok_bind,
    follow_name hplace h.isName h.short hentry]

theorem entry_of_resolve {entry : Entry} (hnames : fs.resolve path = .ok names)
    (hfind : fs.root.find? names = some entry) : fs.entry path = .ok entry := by
  simp only [FileSystem.entry, hnames, ok_bind, hfind]
  rfl

theorem read_of_entry (h : fs.entry path = .ok (.file content)) : fs.read path = .ok content := by
  rw [read, h]
  rfl

theorem withContent_of_ne_sink (h : fs.root.find? (place ++ [name]) ≠ some .sink) (content : Bytes) :
    fs.withContent { place, name } content = { fs with root := fs.root.putAt name (.file content) place } := by
  unfold withContent
  split
  · exact absurd ‹_› h
  · rfl

theorem LeadsTo.free_or_sink (h : fs.LeadsTo path place name) :
    (∃ inner, fs.root.find? place = some (.folder inner) ∧ inner.IsFree name) ∨
      fs.root.find? (place ++ [name]) = some .sink ∧ fs.entry path = .ok .sink := by
  obtain ⟨inner, hinner, hsink | hfree⟩ := h.place_eq
  · have hfind : fs.root.find? (place ++ [name]) = some .sink := by
      rw [Directory.find?_concat hinner, hsink]
    exact .inr ⟨hfind, entry_of_resolve (h.resolve hinner hsink) hfind⟩
  · exact .inl ⟨inner, hinner, hfree⟩

theorem find?_ne_sink {inner : Directory} (hinner : root.find? place = some (.folder inner))
    (hfree : inner.IsFree name) : root.find? (place ++ [name]) ≠ some .sink := by
  rw [Directory.find?_concat hinner]
  intro hsink
  obtain ⟨old, hold⟩ := hfree _ hsink
  cases hold

/-- A file that was written is what its path leads to, unless a sink took it. -/
theorem entry_write (h : fs.write path content = .ok fs') (hsink : fs.entry path ≠ .ok .sink) :
    fs'.entry path = .ok (.file content) := by
  obtain ⟨⟨place, name⟩, hplace, h⟩ := bind_eq_ok h
  obtain rfl := Except.ok.inj h
  have hleads := leadsTo_of_placeOf hplace
  obtain ⟨inner, hinner, hfree⟩ | ⟨-, hentry⟩ := hleads.free_or_sink
  · rw [withContent_of_ne_sink (find?_ne_sink hinner hfree)]
    have hkeeps : fs.root.Keeps (fs.root.putAt name (.file content) place) := Directory.keeps_putAt hinner hfree
    have hfound : (fs.root.putAt name (.file content) place).find? (place ++ [name]) = some (.file content) :=
      Directory.find?_putAt _ hinner
    obtain ⟨inner', hinner'⟩ := hkeeps.folder place inner hinner
    obtain ⟨front, hall, hfollow⟩ := hleads.components_eq
    have hleads' : LeadsTo { fs with root := fs.root.putAt name (.file content) place } path place name :=
      ⟨hleads.passes, ⟨front, hall, follow_of_keeps hkeeps hfollow⟩, hleads.short, hleads.isName,
        inner', hinner', .inr fun entry hentry ↦ ⟨content, by
          rw [Directory.find?_concat hinner', hentry] at hfound
          exact Option.some.inj hfound⟩⟩
    have hentry : inner'.entry? name = some (.file content) := by
      rw [← Directory.find?_concat hinner', hfound]
    exact entry_of_resolve (hleads'.resolve hinner' hentry) hfound
  · exact absurd hentry hsink

end FileSystem

end OntologyGuard
