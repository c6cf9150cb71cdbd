import Mathlib.Data.List.Basic
import OntologyGuard.Data.OrderedMap
import OntologyGuard.Json.Ontology
import OntologyGuard.Proofs.Data.Rebuilding
import OntologyGuard.Proofs.Json.Fields

/-!
The JSON values that may stand for a value of a type. A record may be written without the fields that
hold their default, and so may each record inside it; the reader makes no difference between the two.
-/

namespace OntologyGuard.Json

variable {α β : Type}

/-- JSON values that stand for one value. Each of them can be printed. -/
structure Form where
  Allows : Json → Prop
  spelled : ∀ json, Allows json → Spelled json

/-- A field of a record with the forms of its value, and whether it may be left out. -/
structure Field where
  name : String
  form : Form
  Omissible : Prop

/-- The members that fields are written as, in the order of the fields. -/
inductive Listed : List Field → List (String × Json) → Prop where
  | nil : Listed [] []
  | present {field : Field} {fields : List Field} {json : Json} {members : List (String × Json)}
    (hjson : field.form.Allows json) (hrest : Listed fields members) :
    Listed (field :: fields) ((field.name, json) :: members)
  | omitted {field : Field} {fields : List Field} {members : List (String × Json)}
    (hfield : field.Omissible) (hrest : Listed fields members) : Listed (field :: fields) members

namespace Listed

variable {fields : List Field} {members : List (String × Json)}

theorem spelled (h : Listed fields members) : ∀ member ∈ members, Spelled member.2 := by
  induction h with
  | nil => simp
  | present hjson _ ih => exact List.forall_mem_cons.2 ⟨Form.spelled _ _ hjson, ih⟩
  | omitted _ _ ih => exact ih

theorem names_sublist (h : Listed fields members) :
    (members.map Prod.fst).Sublist (fields.map Field.name) := by
  induction h with
  | nil => exact .slnil
  | present _ _ ih => exact ih.cons_cons _
  | omitted _ _ ih => exact ih.cons _

end Listed

namespace Field

/-- The members hold the field, or lack it where it may be left out. -/
def In (field : Field) (members : List (String × Json)) : Prop :=
  (∃ json, Fields.get? ⟨false, members⟩ field.name = some json ∧ field.form.Allows json) ∨
    Fields.get? ⟨false, members⟩ field.name = none ∧ field.Omissible

theorem In.cons {field : Field} {members : List (String × Json)} (h : field.In members) {name : String}
    (hname : field.name ≠ name) (json : Json) : field.In ((name, json) :: members) := by
  simpa only [In, Fields.get?, List.lookup_cons, beq_false_of_ne hname] using h

theorem In.of_omissible {field : Field} {members : List (String × Json)} (h : field.Omissible)
    (hname : field.name ∉ members.map Prod.fst) : field.In members := by
  refine .inr ⟨List.lookup_eq_none_iff.2 fun member hmember ↦ bne_iff_ne.2 ?_, h⟩
  intro heq
  exact hname (heq ▸ List.mem_map_of_mem hmember)

end Field

theorem Listed.forall_in {fields : List Field} {members : List (String × Json)}
    (h : Listed fields members) (hnodup : (fields.map Field.name).Nodup) :
    ∀ field ∈ fields, field.In members := by
  induction h with
  | nil => simp
  | present hjson hrest ih =>
    obtain ⟨hname, hnames⟩ := List.nodup_cons.1 hnodup
    refine List.forall_mem_cons.2 ⟨.inl ⟨_, List.lookup_cons_self, hjson⟩, fun other hother ↦ ?_⟩
    have hne := ne_of_mem_of_not_mem (List.mem_map_of_mem hother) hname
    exact (ih hnames other hother).cons hne _
  | omitted hfield hrest ih =>
    obtain ⟨hname, hnames⟩ := List.nodup_cons.1 hnodup
    have habsent := fun hmember ↦ hname (hrest.names_sublist.subset hmember)
    exact List.forall_mem_cons.2 ⟨.of_omissible hfield habsent, ih hnames⟩

namespace Form

def exactly (json : Json) (h : Spelled json) : Form := ⟨(· = json), fun _ heq ↦ heq ▸ h⟩

def text (s : String) : Form := exactly (.text s) (spelled_text s)

def bool (b : Bool) : Form := exactly (.bool b) (spelled_bool b)

def word (n : UInt32) : Form := exactly (.nat n.toNat) (spelled_nat n.toNat)

def option (form : α → Form) : Option α → Form
  | none => exactly .null trivial
  | some a => form a

def list (form : α → Form) (items : List α) : Form where
  Allows json := ∃ parts, json = .array parts ∧ List.Forall₂ (fun a part ↦ (form a).Allows part) items parts
  spelled := by
    rintro - ⟨parts, rfl, h⟩
    have hparts : List.Forall₂ (fun part a ↦ Spelled part ∧ (form a).Allows part) parts items :=
      List.Forall₂.flip (h.imp fun a part hpart ↦ ⟨(form a).spelled part hpart, hpart⟩)
    exact spelled_array ((List.forall₂_and_left parts items).1 hparts).1

def entries (form : α → Form) (m : OrderedMap String α) : Form where
  Allows json := ∃ members, json = .record members ∧
    List.Forall₂ (fun entry member ↦ member.1 = entry.1 ∧ (form entry.2).Allows member.2) m.entries members
  spelled := by
    rintro - ⟨members, rfl, h⟩
    have hmembers : List.Forall₂ (fun member entry ↦ Spelled member.2 ∧ (form entry.2).Allows member.2)
        members m.entries :=
      List.Forall₂.flip (h.imp fun entry member hmember ↦
        ⟨(form entry.2).spelled member.2 hmember.2, hmember.2⟩)
    exact spelled_record ((List.forall₂_and_left members m.entries).1 hmembers).1

/-- An object whose only member has a name that tells what its value is. -/
def tagged (name : String) (form : Form) : Form where
  Allows json := ∃ content, json = .record [(name, content)] ∧ form.Allows content
  spelled := by
    rintro - ⟨content, rfl, h⟩
    exact ⟨rfl, form.spelled content h, trivial⟩

def record (fields : List Field) : Form where
  Allows json := ∃ members, json = .record members ∧ Listed fields members
  spelled := by
    rintro - ⟨members, rfl, h⟩
    exact spelled_record h.spelled

theorem read_record {fields : List Field} {json : Json} {names : List String} {build : Fields → Option α}
    {a : α} (h : (record fields).Allows json) (hnames : fields.map Field.name = names) (hnodup : names.Nodup)
    (hbuild : ∀ members, fields.Forall (·.In members) → build ⟨false, members⟩ = some a) :
    (Fields.ofJson? names json >>= build) = some a := by
  obtain ⟨members, rfl, hlisted⟩ := h
  subst hnames
  rw [Fields.ofJson?_record hlisted.names_sublist hnodup]
  exact hbuild members (List.forall_iff_forall_mem.2 (hlisted.forall_in hnodup))

end Form

namespace Field

def required (name : String) (form : α → Form) (a : α) : Field := ⟨name, form a, False⟩

def orDefault (name : String) (default : α) (form : α → Form) (a : α) : Field :=
  ⟨name, form a, a = default⟩

def nullable (name : String) (form : α → Form) (x : Option α) : Field :=
  ⟨name, .option form x, x = none⟩

end Field

/-- The text of a JSON value, on one line or indented, is read as this value. -/
def ReadsAs (json : Json) (read : Json → Option α) (a : α) : Prop :=
  (parse? json.compact).bind read = some a ∧ (parse? json.indented).bind read = some a

/-- What a writer writes is among the forms of a value, and from all of these a reader reads the value. -/
structure RoundTrips (form : α → Form) (write : α → Json) (read : Json → Option α) : Prop where
  allows : ∀ a, (form a).Allows (write a)
  reads : ∀ a json, (form a).Allows json → read json = some a

namespace RoundTrips

variable {form : α → Form} {write : α → Json} {read : Json → Option α}

theorem exactly (hspelled : ∀ a, Spelled (write a)) (h : ∀ a, read (write a) = some a) :
    RoundTrips (fun a ↦ .exactly (write a) (hspelled a)) write read where
  allows _ := rfl
  reads a _ heq := heq ▸ h a

theorem text : RoundTrips Form.text .text asText? := exactly spelled_text fun _ ↦ rfl

theorem bool : RoundTrips Form.bool .bool asBool? := exactly spelled_bool fun _ ↦ rfl

theorem word : RoundTrips Form.word (fun n ↦ .nat n.toNat) asWord? :=
  exactly (fun n : UInt32 ↦ spelled_nat n.toNat) asWord?_nat

theorem option (h : RoundTrips form write read) (hnull : ∀ a, ¬ (form a).Allows .null) :
    RoundTrips (Form.option form) (.option write) (asOption? read) where
  allows x := by
    cases x with
    | none => rfl
    | some a => exact h.allows a
  reads x json hjson := by
    cases x with
    | none =>
      rw [show json = .null from hjson]
      rfl
    | some a =>
      have hne : json ≠ .null := fun heq ↦ hnull a (heq ▸ hjson)
      rw [asOption?_of_ne_null hne, h.reads a json hjson, Option.map_some]

theorem list (h : RoundTrips form write read) :
    RoundTrips (Form.list form) (.list write) (asList? read) where
  allows items := ⟨_, rfl, List.forall₂_map_right_iff.2 (List.forall₂_same.2 fun a _ ↦ h.allows a)⟩
  reads items json hjson := by
    obtain ⟨parts, rfl, hparts⟩ := hjson
    exact mapM_eq_some_of_forall₂ (hparts.imp h.reads)

theorem entries (h : RoundTrips form write read) :
    RoundTrips (Form.entries form) (OrderedMap.toJson write) (OrderedMap.ofJson? read) where
  allows m := by
    refine ⟨_, rfl, List.forall₂_map_right_iff.2 (List.forall₂_same.2 fun entry _ ↦ ?_)⟩
    exact ⟨rfl, h.allows entry.2⟩
  reads m json hjson := by
    obtain ⟨members, rfl, hmembers⟩ := hjson
    have hentries : members.mapM (fun member ↦ (read member.2).map (member.1, ·)) = some m.entries := by
      refine mapM_eq_some_of_forall₂ (hmembers.imp ?_)
      rintro entry member ⟨hkey, hvalue⟩
      rw [h.reads entry.2 member.2 hvalue, Option.map_some, hkey]
    simp [OrderedMap.ofJson?, asMembers?_record, hentries, OrderedMap.ofList_entries]

theorem optionalText : RoundTrips (Form.option .text) (.option .text) (asOption? asText?) :=
  text.option fun _ heq ↦ by cases heq

theorem optionalBool : RoundTrips (Form.option .bool) (.option .bool) (asOption? asBool?) :=
  bool.option fun _ heq ↦ by cases heq

theorem optionalWord :
    RoundTrips (Form.option .word) (.option fun n ↦ .nat n.toNat) (asOption? asWord?) :=
  word.option fun _ heq ↦ by cases heq

variable {name : String} {members : List (String × Json)} {a : α}

theorem read_tagged (h : RoundTrips form write read) {wrap : α → β} {readSum : Json → Option β} {json : Json}
    (hjson : (Form.tagged name (form a)).Allows json)
    (hcase : ∀ content, readSum (.record [(name, content)]) = (read content).map wrap) :
    readSum json = some (wrap a) := by
  obtain ⟨content, rfl, hcontent⟩ := hjson
  rw [hcase, h.reads a content hcontent, Option.map_some]

theorem required? (h : RoundTrips form write read) (hfield : (Field.required name form a).In members) :
    Fields.required? ⟨false, members⟩ name read = some a := by
  obtain ⟨json, hget, hjson⟩ | ⟨-, hnever⟩ := hfield
  · exact (Fields.required?_of_get? hget read).trans (h.reads a json hjson)
  · exact hnever.elim

theorem orDefault? {default : α} (h : RoundTrips form write read)
    (hfield : (Field.orDefault name default form a).In members) :
    Fields.orDefault? ⟨false, members⟩ name default read = some a := by
  obtain ⟨json, hget, hjson⟩ | ⟨hget, hdefault⟩ := hfield
  · exact (Fields.orDefault?_of_get? hget default read).trans (h.reads a json hjson)
  · rw [show a = default from hdefault]
    exact Fields.orDefault?_of_get?_eq_none hget default read

theorem nullable? {x : Option α} (h : RoundTrips (Form.option form) (.option write) (asOption? read))
    (hfield : (Field.nullable name form x).In members) :
    Fields.nullable? ⟨false, members⟩ name read = some x := by
  obtain ⟨json, hget, hjson⟩ | ⟨hget, hnone⟩ := hfield
  · exact (Fields.nullable?_of_get? hget read).trans (h.reads x json hjson)
  · rw [show x = none from hnone]
    exact Fields.nullable?_of_get?_eq_none hget rfl read

theorem readsAs (h : RoundTrips form write read) {json : Json} (hjson : (form a).Allows json) :
    json.ReadsAs read a := by
  have hspelled := (form a).spelled json hjson
  have hread := h.reads a json hjson
  refine ⟨?_, ?_⟩
  · rw [parse?_compact hspelled, Option.bind_some, hread]
  · rw [parse?_indented hspelled, Option.bind_some, hread]

end RoundTrips

end OntologyGuard.Json
