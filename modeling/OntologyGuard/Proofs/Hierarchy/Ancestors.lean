import Mathlib.Logic.Relation
import Mathlib.Order.Lattice.Nat
import OntologyGuard.Proofs.Hierarchy.Removal

/-!
The superclasses of a class come nearest first: they are all that lie above it, each of them once, in the
order of their distance. A search that takes one class after the other off a queue comes to its end, on
cycles too, and finds them in this very order.
-/

namespace OntologyGuard.Hierarchy

open Relation (TransGen)

variable {steps : OrderedMap Iri (List Iri)} {edges : List (Iri × Iri)} {h : Hierarchy} {a b start : Iri}

theorem mem_reach_iff : b ∈ reach steps a ↔ TransGen (fun x y ↦ y ∈ following steps x) a b := by
  constructor
  · intro hb
    refine explore_induction (motive := TransGen _ a) ?_ _ ?_ ?_ b hb
    · exact fun x hx y hy ↦ hx.tail hy
    · exact fun x hx ↦ absurd hx List.not_mem_nil
    · exact fun x hx ↦ .single hx
  · intro hpath
    obtain ⟨hstart, hclosed⟩ := reach_closed steps a
    induction hpath with
    | single hstep => exact hstart _ hstep
    | tail _ hstep ih => exact hclosed _ ih _ hstep

theorem mem_ancestors : b ∈ h.ancestors a ↔ b ≠ a ∧ TransGen (fun x y ↦ y ∈ h.parentsOf x) a b := by
  rw [ancestors, List.mem_filter, ← DistinctList.mem_def, mem_reach_iff, decide_eq_true_eq, and_comm]
  rfl

theorem exists_path_iff :
    (∃ n, Path edges (n + 1) a b) ↔ TransGen (fun x y ↦ (y, x) ∈ edges) b a := by
  constructor
  · rintro ⟨n, path⟩
    induction n generalizing b with
    | zero =>
      cases path with
      | snoc path edge =>
        cases path
        exact .single edge
    | succ n ih =>
      cases path with
      | snoc path edge => exact .head edge (ih path)
  · intro hup
    induction hup using TransGen.head_induction_on with
    | single edge => exact ⟨0, (Path.nil a).snoc edge⟩
    | head edge _ ih =>
      obtain ⟨n, path⟩ := ih
      exact ⟨n + 1, path.snoc edge⟩

section Distance

variable {next : Iri → List Iri} {seen result : DistinctList Iri} {frontier : List Iri} {level : Nat}

noncomputable def distance (edges : List (Iri × Iri)) (upper lower : Iri) : Nat :=
  sInf {n | Path edges n upper lower}

theorem distance_le {n : Nat} (path : Path edges n a b) : distance edges a b ≤ n := Nat.sInf_le path

theorem path_distance {n : Nat} (path : Path edges n a b) : Path edges (distance edges a b) a b :=
  Nat.sInf_mem (s := {n | Path edges n a b}) ⟨n, path⟩

/-- What was seen after so many rounds are the classes that lie no farther up, in the order of their
distance, and those that lie one edge farther up stand in the frontier. -/
structure Level (edges : List (Iri × Iri)) (start : Iri) (level : Nat) (seen : DistinctList Iri)
    (frontier : List Iri) : Prop where
  mem_seen : ∀ a, a ∈ seen ↔ ∃ n, n < level ∧ Path edges (n + 1) a start
  above : ∀ a ∈ frontier, Path edges (level + 1) a start
  complete : ∀ a, Path edges (level + 1) a start → a ∈ seen ∨ a ∈ frontier
  sorted : seen.toList.Pairwise fun a b ↦ ∀ n, Path edges (n + 1) b start →
    ∃ m, m ≤ n ∧ Path edges (m + 1) a start

theorem Level.grow (hnext : ∀ a b, b ∈ next a ↔ (b, a) ∈ edges) {fresh : List Iri}
    (h : Level edges start level seen frontier)
    (hgrown : (seen.append frontier).toList = seen.toList ++ fresh)
    (hnew : ∀ a ∈ fresh, a ∈ frontier ∧ a ∉ seen) :
    Level edges start (level + 1) (seen.append frontier) (fresh.flatMap next) := by
  have hfar : ∀ b ∈ fresh, ∀ n, Path edges (n + 1) b start → level ≤ n := by
    intro b hb n path
    by_contra hn
    exact (hnew b hb).2 ((h.mem_seen b).2 ⟨n, Nat.not_le.1 hn, path⟩)
  have hmem (a : Iri) :
      a ∈ seen.append frontier ↔ ∃ n, n < level + 1 ∧ Path edges (n + 1) a start := by
    rw [DistinctList.mem_append, h.mem_seen]
    constructor
    · rintro (⟨n, hn, path⟩ | ha)
      · exact ⟨n, Nat.lt_succ_of_lt hn, path⟩
      · exact ⟨level, Nat.lt_succ_self level, h.above a ha⟩
    · rintro ⟨n, hn, path⟩
      rcases Nat.lt_succ_iff_lt_or_eq.1 hn with hlt | rfl
      · exact .inl ⟨n, hlt, path⟩
      · exact (h.complete a path).imp_left (h.mem_seen a).1
  refine ⟨hmem, ?_, ?_, ?_⟩
  · intro a ha
    obtain ⟨b, hb, hstep⟩ := List.mem_flatMap.1 ha
    exact .cons ((hnext b a).1 hstep) (h.above b (hnew b hb).1)
  · intro a path
    obtain ⟨b, edge, further⟩ := path.exists_first
    by_cases hb : b ∈ seen
    · obtain ⟨n, hn, nearer⟩ := (h.mem_seen b).1 hb
      exact .inl ((hmem a).2 ⟨n + 1, Nat.succ_lt_succ hn, .cons edge nearer⟩)
    · have hgrow : b ∈ seen.append frontier := (hmem b).2 ⟨level, Nat.lt_succ_self level, further⟩
      rw [DistinctList.mem_def, hgrown, List.mem_append] at hgrow
      exact .inr (List.mem_flatMap.2 ⟨b, hgrow.resolve_left hb, (hnext b a).2 edge⟩)
  · rw [hgrown]
    refine List.pairwise_append.2 ⟨h.sorted, ?_, ?_⟩
    · refine List.pairwise_of_forall_mem_list fun a ha b hb n path ↦ ?_
      exact ⟨level, hfar b hb n path, h.above a (hnew a ha).1⟩
    · intro a ha b hb n path
      obtain ⟨m, hm, nearer⟩ := (h.mem_seen a).1 ha
      exact ⟨m, Nat.le_trans (Nat.le_of_lt hm) (hfar b hb n path), nearer⟩

theorem Explores.sorted (hnext : ∀ a b, b ∈ next a ↔ (b, a) ∈ edges)
    (hsearch : Explores next seen frontier result) (h : Level edges start level seen frontier) :
    result.toList.Pairwise fun a b ↦ ∀ n, Path edges (n + 1) b start →
      ∃ m, m ≤ n ∧ Path edges (m + 1) a start := by
  induction hsearch generalizing level with
  | finished _ => exact h.sorted
  | round hgrown hnew _ ih => exact ih (h.grow hnext hgrown hnew)

end Distance

section Queue

variable {next : Iri → List Iri} {seen result : DistinctList Iri}
  {taken queue frontier fresh later list other : List Iri}

/-- A search with a queue. The class at the head is passed over if it is the start or has been taken
before; else it is taken, and what follows it joins the queue. -/
inductive Drains (next : Iri → List Iri) (start : Iri) : List Iri → List Iri → List Iri → Prop
  | empty (taken : List Iri) : Drains next start taken [] taken
  | pass {a : Iri} {taken queue list : List Iri} (known : a = start ∨ a ∈ taken)
    (later : Drains next start taken queue list) : Drains next start taken (a :: queue) list
  | take {a : Iri} {taken queue list : List Iri} (other : a ≠ start) (new : a ∉ taken)
    (later : Drains next start (taken ++ [a]) (queue ++ next a) list) :
    Drains next start taken (a :: queue) list

theorem Drains.unique (h : Drains next start taken queue list)
    (h' : Drains next start taken queue other) : list = other := by
  induction h with
  | empty taken =>
    cases h'
    rfl
  | pass known _ ih =>
    cases h' with
    | pass _ later => exact ih later
    | take hstart hnew _ => exact absurd known (not_or.2 ⟨hstart, hnew⟩)
  | take hstart hnew _ ih =>
    cases h' with
    | pass known _ => exact absurd known (not_or.2 ⟨hstart, hnew⟩)
    | take _ _ later => exact ih later

def isNew (start : Iri) (taken : List Iri) (a : Iri) : Bool := a ≠ start ∧ a ∉ taken

theorem isNew_eq_false_iff : isNew start taken a = false ↔ a = start ∨ a ∈ taken := by
  simp [isNew, or_iff_not_imp_left]

theorem Drains.pass_all {known : List Iri} (hknown : ∀ a ∈ known, a = start ∨ a ∈ taken)
    (h : Drains next start taken queue list) : Drains next start taken (known ++ queue) list := by
  induction known with
  | nil => exact h
  | cons a rest ih =>
    obtain ⟨ha, hrest⟩ := List.forall_mem_cons.1 hknown
    exact .pass ha (ih hrest)

theorem Drains.congr (h : Drains next start taken queue list)
    (hsame : other.filter (isNew start taken) = queue.filter (isNew start taken)) :
    Drains next start taken other list := by
  induction h generalizing other with
  | empty taken =>
    rw [← List.append_nil other]
    refine .pass_all (fun a ha ↦ ?_) (.empty taken)
    have hnone := List.filter_eq_nil_iff.1 hsame a ha
    exact isNew_eq_false_iff.1 (Bool.eq_false_iff.2 hnone)
  | @pass a taken queue list known _ ih =>
    rw [List.filter_cons_of_neg (Bool.eq_false_iff.1 (isNew_eq_false_iff.2 known))] at hsame
    exact ih hsame
  | @take a taken queue list hstart hnew _ ih =>
    have ha : isNew start taken a = true := by simp [isNew, hstart, hnew]
    rw [List.filter_cons_of_pos ha] at hsame
    obtain ⟨known, rest, rfl, hknown, -, hrest⟩ := List.filter_eq_cons_iff.1 hsame
    refine .pass_all (fun b hb ↦ isNew_eq_false_iff.1 (Bool.eq_false_iff.2 (hknown b hb)))
      (.take hstart hnew (ih ?_))
    have hstill (b : Iri) :
        (isNew start (taken ++ [a]) b && isNew start taken b) = isNew start (taken ++ [a]) b := by
      simp [isNew]
      tauto
    have hfewer (list : List Iri) : list.filter (isNew start (taken ++ [a])) =
        (list.filter (isNew start taken)).filter (isNew start (taken ++ [a])) := by
      rw [List.filter_filter, funext hstill]
    rw [List.filter_append, List.filter_append, hfewer rest, hrest, ← hfewer queue]

/-- The members of a list but the start. -/
def others (start : Iri) (list : List Iri) : List Iri := list.filter (· ≠ start)

theorem eq_or_mem_others (h : a ∈ list) : a = start ∨ a ∈ others start list := by
  by_cases ha : a = start
  · exact .inl ha
  · exact .inr (List.mem_filter.2 ⟨h, decide_eq_true ha⟩)

theorem Drains.of_frontier (hgrown : (seen.append frontier).toList = seen.toList ++ fresh)
    (h : Drains next start (others start (seen.append frontier).toList)
      (later ++ (others start fresh).flatMap next) list) :
    Drains next start (others start seen.toList) (frontier ++ later) list := by
  induction frontier generalizing seen fresh later with
  | nil =>
    obtain rfl : fresh = [] := List.self_eq_append_right.1 hgrown
    simpa [others, DistinctList.append] using h
  | cons a rest ih =>
    rw [DistinctList.append_cons] at hgrown h
    rw [List.cons_append]
    have hpush := DistinctList.toList_push seen a
    by_cases hold : a ∈ seen.toList
    · rw [if_pos hold] at hpush
      refine .pass (eq_or_mem_others hold) ?_
      rw [← hpush] at hgrown ⊢
      exact ih hgrown h
    · rw [if_neg hold] at hpush
      obtain ⟨more, hmore⟩ := DistinctList.exists_toList_append (seen.push a) rest
      obtain rfl : fresh = a :: more := by
        rw [hmore, hpush, List.append_assoc] at hgrown
        exact (List.append_cancel_left hgrown).symm
      by_cases ha : a = start
      · have hview : others start (seen.push a).toList = others start seen.toList := by
          rw [others, hpush, List.filter_append]
          simp [others, ha]
        refine .pass (.inl ha) ?_
        rw [← hview]
        refine ih hmore ?_
        simpa [others, ha] using h
      · have hview : others start (seen.push a).toList = others start seen.toList ++ [a] := by
          simp [others, hpush, ha]
        refine .take ha (fun hmem ↦ hold (List.mem_of_mem_filter hmem)) ?_
        rw [← hview, List.append_assoc]
        refine ih hmore ?_
        simpa [others, ha] using h

theorem flatMap_others {f : Iri → List Iri} (h : f start = []) :
    (others start list).flatMap f = list.flatMap f := by
  induction list with
  | nil => rfl
  | cons a rest ih => by_cases ha : a = start <;> simp_all [others]

/-- The search by rounds finds what the queue finds, as the start brings nothing new when it comes up
again. -/
theorem Explores.drains (hsearch : Explores next seen frontier result)
    (hstart : ∀ a ∈ next start, a ∈ seen ∨ a ∈ frontier) :
    Drains next start (others start seen.toList) frontier (others start result.toList) := by
  induction hsearch with
  | @finished seen frontier known =>
    rw [← List.append_nil frontier]
    exact .pass_all (fun a ha ↦ eq_or_mem_others (known a ha)) (.empty _)
  | @round seen result frontier fresh grown _ _ ih =>
    have hgrown (a : Iri) (ha : a ∈ next start) : a ∈ seen.append frontier :=
      DistinctList.mem_append.2 (hstart a ha)
    rw [← List.append_nil frontier]
    refine .of_frontier grown ((ih fun a ha ↦ .inl (hgrown a ha)).congr ?_)
    rw [List.nil_append, List.filter_flatMap, List.filter_flatMap, flatMap_others]
    refine List.filter_eq_nil_iff.2 fun a ha ↦ Bool.eq_false_iff.1 ?_
    exact isNew_eq_false_iff.2 (eq_or_mem_others (hgrown a ha))

theorem drains_ancestors (h : Hierarchy) (iri : Iri) :
    Drains h.parentsOf iri [] (h.parentsOf iri) (h.ancestors iri) :=
  (explores_reach h.parents iri).drains fun _ ha ↦ .inr ha

end Queue

theorem level_zero {next : Iri → List Iri} (hnext : ∀ a b, b ∈ next a ↔ (b, a) ∈ edges) :
    Level edges start 0 .empty (next start) where
  mem_seen a := iff_of_false List.not_mem_nil (by simp)
  above a ha := .cons ((hnext start a).1 ha) (.nil start)
  complete a path := by
    obtain ⟨b, edge, further⟩ := path.exists_first
    cases further
    exact .inr ((hnext start a).2 edge)
  sorted := .nil

/-- The list has the classes above the start but the start itself, each of them once, and none of them is
nearer than one before it. -/
structure NearestFirst (edges : List (Iri × Iri)) (start : Iri) (list : List Iri) : Prop where
  nodup : list.Nodup
  mem_iff : ∀ a, a ∈ list ↔ a ≠ start ∧ ∃ n, Path edges (n + 1) a start
  sorted : list.Pairwise fun a b ↦ distance edges a start ≤ distance edges b start

theorem nearestFirst_ancestors (hedges : ∀ a b, b ∈ h.parentsOf a ↔ (b, a) ∈ edges) :
    NearestFirst edges start (h.ancestors start) := by
  have hmem (a : Iri) : a ∈ h.ancestors start ↔ a ≠ start ∧ ∃ n, Path edges (n + 1) a start := by
    rw [mem_ancestors, exists_path_iff]
    simp only [hedges]
  have hsorted := (explores_reach h.parents start).sorted hedges (level_zero hedges)
  refine ⟨(reach h.parents start).nodup.filter _, hmem, (hsorted.filter _).imp_of_mem ?_⟩
  intro a b _ hb hle
  obtain ⟨hne, n, path⟩ := (hmem b).1 hb
  have shortest := path_distance path
  cases hdistance : distance edges b start with
  | zero =>
    rw [hdistance] at shortest
    cases shortest
    exact absurd rfl hne
  | succ k =>
    obtain ⟨m, hm, nearer⟩ := hle k (hdistance ▸ shortest)
    exact Nat.le_trans (distance_le nearer) (Nat.succ_le_succ hm)

def declaredEdges (classes : List ClassDescription) : List (Iri × Iri) :=
  classes.flatMap fun description ↦ description.parents.map (·, description.iri)

variable {classes : List ClassDescription} {added : List (Iri × Iri)}

theorem mem_declaredEdges :
    (a, b) ∈ declaredEdges classes ↔ ∃ d ∈ classes, d.iri = b ∧ a ∈ d.parents := by
  simp only [declaredEdges, List.mem_flatMap, List.mem_map, Prod.mk.injEq]
  refine exists_congr fun d ↦ and_congr_right fun _ ↦ ?_
  constructor
  · rintro ⟨p, hp, rfl, rfl⟩
    exact ⟨rfl, hp⟩
  · rintro ⟨rfl, hp⟩
    exact ⟨a, hp, rfl, rfl⟩

theorem mem_childrenOf_addEdges :
    b ∈ (h.addEdges added).childrenOf a ↔ b ∈ h.childrenOf a ∨ (a, b) ∈ added := by
  unfold addEdges
  induction added generalizing h with
  | nil => simp
  | cons edge rest ih =>
    rw [List.foldl_cons, ih, mem_childrenOf_addEdge, List.mem_cons, or_assoc, Prod.ext_iff]

theorem mem_parentsOf_addEdges :
    a ∈ ((ofClasses classes).addEdges added).parentsOf b ↔ (a, b) ∈ declaredEdges classes ++ added := by
  rw [← ((Mirrored.ofClasses classes).addEdges added).mem_iff, mem_childrenOf_addEdges,
    mem_childrenOf_ofClasses, List.mem_append, mem_declaredEdges]

/-- Whatever descriptions and further edges a hierarchy is made of, the superclasses of a class come
nearest first, and they are what the search with a queue ends with. -/
theorem ancestors_of_declared (classes : List ClassDescription) (added : List (Iri × Iri)) (iri : Iri) :
    NearestFirst (declaredEdges classes ++ added) iri
        (((ofClasses classes).addEdges added).ancestors iri) ∧
      ∀ list, Drains ((ofClasses classes).addEdges added).parentsOf iri []
        (((ofClasses classes).addEdges added).parentsOf iri) list ↔
          list = ((ofClasses classes).addEdges added).ancestors iri := by
  have hdrains := drains_ancestors ((ofClasses classes).addEdges added) iri
  refine ⟨nearestFirst_ancestors fun a b ↦ mem_parentsOf_addEdges, fun list ↦ ⟨?_, ?_⟩⟩
  · exact fun h ↦ h.unique hdrains
  · rintro rfl
    exact hdrains

/-- Two ways up to `A`, one of them longer, and a loop that leads back. -/
example : ((ofClasses [{ iri := "D", parents := ["C", "A", "D"] }]).addEdges
    [("B", "C"), ("A", "B"), ("D", "A"), ("E", "A")]).ancestors "D" = ["C", "A", "B", "E"] := by
  decide +kernel

end OntologyGuard.Hierarchy
