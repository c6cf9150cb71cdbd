import Mathlib.Data.List.Forall2
import Mathlib.Data.List.TakeWhile
import OntologyGuard.Json.Fields
import OntologyGuard.Proofs.Json.RoundTrip
import OntologyGuard.Proofs.Text.Numeral

namespace OntologyGuard.Json

open Token

variable {α β : Type} {members : List (String × Json)}

theorem isNumber_digits {first : Char} {rest : List Char} (hfirst : first.isDigit = true)
    (hrest : ∀ c ∈ rest, c.isDigit = true) (hzero : first ≠ '0' ∨ rest = []) :
    isNumber (first :: rest) = true := by
  have hsign : unsigned (first :: rest) = first :: rest := by
    unfold unsigned
    split
    next heq =>
      rw [(List.cons.inj heq).1] at hfirst
      cases hfirst
    · rfl
  have hinteger : integerPart? (first :: rest) = some [] := by
    unfold integerPart?
    split
    next heq =>
      obtain ⟨rfl, rfl⟩ := List.cons.inj heq
      rw [hzero.resolve_left fun h ↦ h rfl]
    · have hdrop : rest.dropWhile Char.isDigit = [] := List.dropWhile_eq_nil_iff.2 hrest
      rw [digits?, if_pos hfirst, hdrop]
  rw [isNumber, hsign, hinteger]
  rfl

theorem isNumeral_repr (n : Nat) : IsNumeral n.repr := by
  obtain ⟨first, rest, hdigits, hzero⟩ :
      ∃ first rest, n.repr.toList = first :: rest ∧ (first ≠ '0' ∨ rest = []) := by
    by_cases h : n = 0
    · subst h
      exact ⟨'0', [], rfl, .inr rfl⟩
    · obtain ⟨first, rest, hdigits, hfirst⟩ := Text.exists_repr_eq_cons h
      exact ⟨first, rest, hdigits, .inl hfirst⟩
  have hall := (Text.numeral_repr n).isDigit
  rw [hdigits, List.forall_mem_cons] at hall
  obtain ⟨hfirst, hrest⟩ := hall
  refine ⟨hdigits ▸ isNumber_digits hfirst hrest hzero, first, rest, hdigits, ?_, fun c hc ↦ ?_⟩
  · rw [hfirst, Bool.true_or]
  · rw [isNumberPart, hrest c hc]
    rfl

theorem spelled_text (s : String) : Spelled (.text s) := rfl

theorem spelled_bool (b : Bool) : Spelled (.bool b) := trivial

theorem spelled_nat (n : Nat) : Spelled (.nat n) := isNumeral_repr n

theorem spelled_option {encode : α → Json} (h : ∀ a, Spelled (encode a)) (x : Option α) :
    Spelled (.option encode x) := by
  cases x with
  | none => exact trivial
  | some a => exact h a

theorem spelled_array {items : List Json} (h : ∀ item ∈ items, Spelled item) :
    Spelled (.array items) := by
  rw [Spelled]
  induction items with
  | nil => exact trivial
  | cons item rest ih =>
    exact ⟨h item List.mem_cons_self, ih fun i hi ↦ h i (List.mem_cons_of_mem item hi)⟩

theorem spelled_record (h : ∀ member ∈ members, Spelled member.2) : Spelled (.record members) := by
  rw [record, Spelled]
  induction members with
  | nil => exact trivial
  | cons member rest ih =>
    exact ⟨rfl, h member List.mem_cons_self, ih fun m hm ↦ h m (List.mem_cons_of_mem member hm)⟩

theorem asNat?_nat (n : Nat) : (Json.nat n).asNat? = some n := (Text.numeral_repr n).natural?_eq

theorem asWord?_nat (n : UInt32) : (Json.nat n.toNat).asWord? = some n := by
  rw [asWord?, asNat?_nat, Option.filter_some, if_pos (decide_eq_true n.toNat_lt_size),
    Option.map_some, UInt32.ofNat_toNat]

theorem mapM_eq_some_of_forall₂ {items : List α} {parts : List β} {read : β → Option α}
    (h : List.Forall₂ (fun a part ↦ read part = some a) items parts) :
    parts.mapM read = some items := by
  induction h with
  | nil => rfl
  | cons hpart _ ih => simp [List.mapM_cons, hpart, ih]

theorem mapM_map {encode : α → β} {read : β → Option α} (h : ∀ a, read (encode a) = some a)
    (items : List α) : (items.map encode).mapM read = some items :=
  mapM_eq_some_of_forall₂ (List.forall₂_map_right_iff.2 (List.forall₂_same.2 fun a _ ↦ h a))

theorem asMembers?_record (members : List (String × Json)) :
    (record members).asMembers? = some members := by
  rw [record, asMembers?]
  refine mapM_map (fun member ↦ ?_) members
  rfl

theorem asOption?_of_ne_null {json : Json} (h : json ≠ .null) (read : Json → Option α) :
    json.asOption? read = (read json).map some := by
  unfold asOption?
  split
  · contradiction
  · rfl

theorem asOption?_option (encode : α → Json) {read : Json → Option α}
    (hread : ∀ a, read (encode a) = some a) (hnull : ∀ a, encode a ≠ .null) (x : Option α) :
    (Json.option encode x).asOption? read = some x := by
  cases x with
  | none => rfl
  | some a => rw [Json.option, asOption?_of_ne_null (hnull a), hread, Option.map_some]

namespace Fields

variable {fields : Fields} {name : String} {json : Json}

theorem required?_of_get? (h : fields.get? name = some json) (read : Json → Option α) :
    fields.required? name read = read json := by
  rw [required?, h, Option.bind_some]

theorem nullable?_of_get? (h : fields.get? name = some json) (read : Json → Option α) :
    fields.nullable? name read = json.asOption? read := by
  rw [nullable?, h]

theorem nullable?_of_get?_eq_none (h : fields.get? name = none) (hnamed : fields.positional = false)
    (read : Json → Option α) : fields.nullable? name read = some none := by
  rw [nullable?, h, hnamed]
  rfl

theorem orDefault?_of_get? (h : fields.get? name = some json) (default : α) (read : Json → Option α) :
    fields.orDefault? name default read = read json := by
  rw [orDefault?, h]

theorem orDefault?_of_get?_eq_none (h : fields.get? name = none) (default : α) (read : Json → Option α) :
    fields.orDefault? name default read = some default := by
  rw [orDefault?, h]

theorem ofJson?_record {names : List String} (hnames : (members.map Prod.fst).Sublist names)
    (h : names.Nodup) : Fields.ofJson? names (.record members) = some ⟨false, members⟩ := by
  have hknown : members.filter (fun member ↦ names.contains member.1) = members := by
    refine List.filter_eq_self.2 fun member hmember ↦ ?_
    exact List.contains_iff_mem.2 (hnames.subset (List.mem_map_of_mem hmember))
  have hmembers := asMembers?_record members
  rw [record] at hmembers ⊢
  simp only [Fields.ofJson?, hmembers, Option.bind_eq_bind, Option.bind_some, hknown,
    if_pos (h.sublist hnames)]

end Fields

end OntologyGuard.Json
