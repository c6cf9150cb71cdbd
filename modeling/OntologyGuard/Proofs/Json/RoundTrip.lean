import OntologyGuard.Json.Reader
import OntologyGuard.Proofs.Json.Tokens

namespace OntologyGuard.Json

namespace Reader

variable {token : Token} {rest : List Token} {expecting : Expecting} {frames : List Frame}

theorem run_cons {result : Expecting × List Frame} (h : step? token expecting frames = some result) :
    run (token :: rest) expecting frames = run rest result.1 result.2 := by
  simp [run, h]

/-- The words of a value, read where one is expected, leave it with the innermost frame. -/
def Takes (json : Json) : Prop := ∀ rest frames, run (tokens json ++ rest) .value frames =
  run rest (absorb json frames).1 (absorb json frames).2

def TakesItems (items : List Json) : Prop := ∀ rest seen frames,
  run (itemTokens items ++ rest) .value (.array seen :: frames) =
    run rest .more (.array (items.reverse ++ seen) :: frames)

def TakesMembers (members : List (JsonText × Json)) : Prop := ∀ rest seen frames,
  run (memberTokens members ++ rest) (.member seen) frames =
    run rest .more (.object (members.reverse ++ seen) none :: frames)

theorem run_itemOrClose (json : Json) (rest : List Token) (frames : List Frame) :
    run (tokens json ++ rest) .itemOrClose frames = run (tokens json ++ rest) .value frames := by
  cases json <;> simp [tokens, run, step?]

theorem takes_array {items : List Json} (h : items ≠ [] → TakesItems items) : Takes (.array items) := by
  intro rest frames
  have hopen : step? .openArray .value frames = some (.itemOrClose, .array [] :: frames) := rfl
  rw [tokens, List.cons_append, run_cons hopen, List.append_assoc]
  cases items with
  | nil => exact run_cons rfl
  | cons item more =>
    have hclose : step? .closeArray .more (.array ((item :: more).reverse ++ []) :: frames) =
        some (absorb (.array (item :: more)) frames) := by
      simp [step?]
    obtain ⟨after, hfirst⟩ : ∃ after, itemTokens (item :: more) = tokens item ++ after := by
      cases more with
      | nil => exact ⟨[], (List.append_nil _).symm⟩
      | cons next more => exact ⟨_, rfl⟩
    have hitems := h (List.cons_ne_nil _ _) (.closeArray :: rest) [] frames
    rw [hfirst, List.append_assoc] at hitems ⊢
    rw [run_itemOrClose]
    exact hitems.trans (run_cons hclose)

theorem takes_object {members : List (JsonText × Json)} (h : members ≠ [] → TakesMembers members) :
    Takes (.object members) := by
  intro rest frames
  have hopen : step? .openObject .value frames = some (.memberOrClose [], frames) := rfl
  rw [tokens, List.cons_append, run_cons hopen, List.append_assoc]
  cases members with
  | nil => exact run_cons rfl
  | cons member more =>
    have hclose : step? .closeObject .more (.object ((member :: more).reverse ++ []) none :: frames) =
        some (absorb (.object (member :: more)) frames) := by
      simp [step?]
    have hfirst : run (memberTokens (member :: more) ++ .closeObject :: rest) (.memberOrClose []) frames =
        run (memberTokens (member :: more) ++ .closeObject :: rest) (.member []) frames := by
      cases more <;> rfl
    have hmembers := h (List.cons_ne_nil _ _) (.closeObject :: rest) [] frames
    exact hfirst.trans (hmembers.trans (run_cons hclose))

theorem takesItems_cons {item next : Json} {more : List Json} (hitem : Takes item)
    (hmore : TakesItems (next :: more)) : TakesItems (item :: next :: more) := by
  intro rest seen frames
  have hcomma : step? .comma .more (.array (item :: seen) :: frames) =
      some (.value, .array (item :: seen) :: frames) := rfl
  rw [itemTokens, List.append_assoc, List.cons_append, hitem]
  refine (run_cons hcomma).trans ((hmore rest (item :: seen) frames).trans ?_)
  simp

theorem takesMembers_singleton {name : JsonText} {value : Json} (hvalue : Takes value) :
    TakesMembers [(name, value)] := by
  intro rest seen frames
  have hname : step? (.string name) (.member seen) frames = some (.colon seen name, frames) := rfl
  have hcolon : step? .colon (.colon seen name) frames =
      some (.value, .object seen name :: frames) := rfl
  exact (run_cons hname).trans ((run_cons hcolon).trans (hvalue rest (.object seen name :: frames)))

theorem takesMembers_cons {member next : JsonText × Json} {more : List (JsonText × Json)}
    (hmember : TakesMembers [member]) (hmore : TakesMembers (next :: more)) :
    TakesMembers (member :: next :: more) := by
  intro rest seen frames
  have hcomma : step? .comma .more (.object (member :: seen) none :: frames) =
      some (.member (member :: seen), frames) := rfl
  have hfirst := hmember (.comma :: (memberTokens (next :: more) ++ rest)) seen frames
  have hwords : memberTokens (member :: next :: more) ++ rest =
      memberTokens [member] ++ .comma :: (memberTokens (next :: more) ++ rest) := by
    simp [memberTokens]
  rw [hwords, hfirst]
  refine (run_cons hcomma).trans ((hmore rest (member :: seen) frames).trans ?_)
  simp

mutual

theorem takes : ∀ json, Takes json
  | .null => fun _ _ ↦ run_cons rfl
  | .bool _ => fun _ _ ↦ run_cons rfl
  | .number _ => fun _ _ ↦ run_cons rfl
  | .string _ => fun _ _ ↦ run_cons rfl
  | .array items => takes_array (takesItems items)
  | .object members => takes_object (takesMembers members)

theorem takesItems : ∀ items, items ≠ [] → TakesItems items
  | [], h => absurd rfl h
  | [item], _ => fun rest seen frames ↦ takes item rest (.array seen :: frames)
  | item :: next :: more, _ =>
    takesItems_cons (takes item) (takesItems (next :: more) (List.cons_ne_nil next more))

theorem takesMembers : ∀ members, members ≠ [] → TakesMembers members
  | [], h => absurd rfl h
  | [(_, value)], _ => takesMembers_singleton (takes value)
  | (_, value) :: next :: more, _ =>
    takesMembers_cons (takesMembers_singleton (takes value))
      (takesMembers (next :: more) (List.cons_ne_nil next more))

end

end Reader

theorem parse?_of_spells {json : Json} {cs : List Char} (h : Token.Spells cs (tokens json)) :
    parse? (String.ofList cs) = some json := by
  have hrun := Reader.takes json [] []
  rw [List.append_nil] at hrun
  rw [parse?, ofChars?, String.toList_ofList, h.scan?, Option.bind_some, hrun]
  rfl

theorem parse?_compact {json : Json} (h : Spelled json) : parse? json.compact = some json :=
  parse?_of_spells (spells_compactChars json h)

theorem parse?_indented {json : Json} (h : Spelled json) : parse? json.indented = some json :=
  parse?_of_spells (spells_indentedChars 0 json h)

end OntologyGuard.Json
