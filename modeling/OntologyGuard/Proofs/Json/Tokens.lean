import OntologyGuard.Json.Printer
import OntologyGuard.Json.Token

/-!
The scanner finds in a printed value the words that it was written with. A word may still be open when
its characters end; the mark or blank that follows it, or the end of the text, completes it.
-/

namespace OntologyGuard.Json

/-- The literal of a number, by the grammar and by its characters. -/
structure IsNumeral (literal : String) : Prop where
  isNumber : Token.isNumber literal.toList = true
  chars : ∃ first rest, literal.toList = first :: rest ∧ (first.isDigit || first = '-') = true ∧
    ∀ c ∈ rest, Token.isNumberPart c = true

mutual

/-- The strings of the value denote texts, and its numbers are numerals. -/
def Spelled : Json → Prop
  | .null => True
  | .bool _ => True
  | .number literal => IsNumeral literal
  | .string s => s.isSome
  | .array items => SpelledItems items
  | .object members => SpelledMembers members

def SpelledItems : List Json → Prop
  | [] => True
  | item :: rest => Spelled item ∧ SpelledItems rest

def SpelledMembers : List (JsonText × Json) → Prop
  | [] => True
  | (name, value) :: rest => name.isSome ∧ Spelled value ∧ SpelledMembers rest

end

mutual

def tokens : Json → List Token
  | .null => [.null]
  | .bool b => [.bool b]
  | .number literal => [.number literal]
  | .string s => [.string s]
  | .array items => .openArray :: (itemTokens items ++ [.closeArray])
  | .object members => .openObject :: (memberTokens members ++ [.closeObject])

def itemTokens : List Json → List Token
  | [] => []
  | [item] => tokens item
  | item :: next :: rest => tokens item ++ .comma :: itemTokens (next :: rest)

def memberTokens : List (JsonText × Json) → List Token
  | [] => []
  | [(name, value)] => .string name :: .colon :: tokens value
  | (name, value) :: next :: rest =>
    .string name :: .colon :: (tokens value ++ .comma :: memberTokens (next :: rest))

end

namespace Token

variable {cs ds : List Char} {ts us : List Token} {c : Char} {t : Token}

/-- The state after some characters, and the words that they complete. -/
def advance? : List Char → State → Option (State × List Token)
  | [], state => some (state, [])
  | c :: rest, state => do
    let (state, new) ← step? state c
    let (state, more) ← advance? rest state
    return (state, new ++ more)

theorem advance?_cons {state next : State} {new : List Token} {rest : List Char}
    (h : step? state c = some (next, new)) :
    advance? (c :: rest) state = (advance? rest next).map fun (last, more) ↦ (last, new ++ more) := by
  cases hrest : advance? rest next <;> simp [advance?, h, hrest]

theorem advance?_append {state next : State} {new : List Token}
    (h : advance? cs state = some (next, new)) :
    advance? (cs ++ ds) state = (advance? ds next).map fun (last, more) ↦ (last, new ++ more) := by
  induction cs generalizing state new with
  | nil =>
    obtain ⟨rfl, rfl⟩ := Prod.mk.inj (Option.some.inj h)
    simp
  | cons c rest ih =>
    cases hstep : step? state c with
    | none => simp [advance?, hstep] at h
    | some found =>
      obtain ⟨after, first⟩ := found
      rw [advance?_cons hstep, Option.map_eq_some_iff] at h
      obtain ⟨⟨last, more⟩, hrest, heq⟩ := h
      obtain ⟨rfl, rfl⟩ := Prod.mk.inj heq
      rw [List.cons_append, advance?_cons hstep, ih hrest, Option.map_map]
      simp [Function.comp_def]

theorem scanFrom_map_some (cs : List Char) (state : State) (found : List Token) :
    scanFrom (cs.map some) state found =
      (advance? cs state).bind fun (last, new) ↦
        (finish? last).map fun pending ↦ found.reverse ++ new ++ pending := by
  induction cs generalizing state found with
  | nil => simp [scanFrom, advance?]
  | cons c rest ih =>
    rw [List.map_cons, scanFrom]
    cases hstep : step? state c with
    | none => simp [advance?, hstep]
    | some result =>
      obtain ⟨next, new⟩ := result
      rw [advance?_cons hstep, Option.bind_map]
      dsimp only
      rw [ih]
      cases advance? rest next with
      | none => rfl
      | some pair => simp

/-- The characters are scanned as these words, whatever mark, blank or end comes after them. -/
def Spells (cs : List Char) (ts : List Token) : Prop :=
  ∃ state new pending, advance? cs .between = some (state, new) ∧ finish? state = some pending ∧
    new ++ pending = ts ∧
    ∀ c found, start? c = some (.between, found) → step? state c = some (.between, pending ++ found)

theorem Spells.scan? (h : Spells cs ts) : scan? (cs.map some) = some ts := by
  obtain ⟨state, new, pending, hadvance, hfinish, rfl, -⟩ := h
  simp [Token.scan?, scanFrom_map_some, hadvance, hfinish]

theorem Spells.nil : Spells [] [] := ⟨.between, [], [], rfl, rfl, rfl, fun _ _ hbreak ↦ hbreak⟩

theorem Spells.append {found : List Token} (h : Spells cs ts) (hbreak : start? c = some (.between, found))
    (h' : Spells ds us) : Spells (cs ++ c :: ds) (ts ++ (found ++ us)) := by
  obtain ⟨state, new, pending, hadvance, -, rfl, hstep⟩ := h
  obtain ⟨last, more, rest, hadvance', hfinish', rfl, hstep'⟩ := h'
  refine ⟨last, new ++ (pending ++ found ++ more), rest, ?_, hfinish', by simp, hstep'⟩
  rw [advance?_append hadvance, advance?_cons (hstep c found hbreak), hadvance']
  rfl

theorem Spells.mark (h : Spells cs ts) (hmark : start? c = some (.between, [t])) (h' : Spells ds us) :
    Spells (cs ++ c :: ds) (ts ++ t :: us) :=
  h.append hmark h'

theorem Spells.blank (h : Spells cs ts) (hblank : start? c = some (.between, [])) (h' : Spells ds us) :
    Spells (cs ++ c :: ds) (ts ++ us) :=
  h.append hblank h'

theorem Spells.newLine (h : Spells cs ts) (depth : Nat) (h' : Spells ds us) :
    Spells (cs ++ newLine depth ++ ds) (ts ++ us) := by
  have hspaces (n : Nat) : Spells (List.replicate n ' ' ++ ds) us := by
    induction n with
    | zero => exact h'
    | succ n ih => exact Spells.nil.blank rfl ih
  rw [Json.newLine, List.append_assoc]
  exact h.blank rfl (hspaces (2 * depth))

theorem Spells.commaNewLine (h : Spells cs ts) (depth : Nat) (h' : Spells ds us) :
    Spells (cs ++ ',' :: Json.newLine depth ++ ds) (ts ++ .comma :: us) := by
  rw [List.append_assoc]
  exact h.mark rfl (Spells.nil.newLine depth h')

theorem isSpace_or_mem_marks {found : List Token} (h : start? c = some (.between, found)) :
    isSpace c = true ∨ c ∈ ['[', ']', '\x7b', '\x7d', ',', ':'] := by
  unfold start? at h
  repeat' split at h
  all_goals simp_all

theorem not_part_of_break {found : List Token} (h : start? c = some (.between, found)) :
    c.isLower = false ∧ isNumberPart c = false := by
  have hbreaks : ∀ c ∈ [' ', '\n', '\t', '\r', '[', ']', '\x7b', '\x7d', ',', ':'],
      c.isLower = false ∧ isNumberPart c = false := by simp [isNumberPart]
  have hspaces : isSpace c = true → c ∈ [' ', '\n', '\t', '\r'] := by simp [isSpace, or_assoc]
  exact hbreaks c (List.mem_append.2 ((isSpace_or_mem_marks h).imp_left hspaces))

theorem Spells.word {seen : List Char} (hadvance : advance? cs .between = some (.word seen, []))
    (hfinish : finish? (.word seen) = some [t]) : Spells cs [t] := by
  refine ⟨.word seen, [], [t], hadvance, hfinish, rfl, fun c found hbreak ↦ ?_⟩
  simp [step?, (not_part_of_break hbreak).1, hfinish, hbreak]

theorem spells_null : Spells "null".toList [.null] := .word rfl rfl

theorem spells_bool (b : Bool) : Spells (compactChars (.bool b)) [.bool b] := by
  cases b with
  | true => exact .word rfl rfl
  | false => exact .word rfl rfl

theorem advance?_number {seen : List Char} (h : ∀ c ∈ cs, isNumberPart c = true) :
    advance? cs (.number seen) = some (.number (cs.reverse ++ seen), []) := by
  induction cs generalizing seen with
  | nil => rfl
  | cons c rest ih =>
    have hstep : step? (.number seen) c = some (.number (c :: seen), []) := by
      simp [step?, h c List.mem_cons_self]
    rw [advance?_cons hstep, ih fun d hd ↦ h d (List.mem_cons_of_mem c hd)]
    simp

theorem spells_number {literal : String} (h : IsNumeral literal) :
    Spells literal.toList [.number literal] := by
  obtain ⟨first, rest, hchars, hfirst, hrest⟩ := h.chars
  have hstart : step? .between first = some (.number [first], []) := by
    have hothers : ∀ d ∈ [' ', '\n', '\t', '\r', '"', '[', ']', '\x7b', '\x7d', ',', ':'],
        (d.isDigit || d = '-') = false := by simp
    have hne : ∀ d ∈ [' ', '\n', '\t', '\r', '"', '[', ']', '\x7b', '\x7d', ',', ':'],
        first ≠ d := by
      rintro d hd rfl
      rw [hothers first hd] at hfirst
      cases hfirst
    simp only [List.forall_mem_cons] at hne
    simp [step?, start?, isSpace, hne, hfirst]
  have hadvance : advance? literal.toList .between = some (.number literal.toList.reverse, []) := by
    rw [hchars, advance?_cons hstart, advance?_number hrest]
    simp
  have hfinish : finish? (.number literal.toList.reverse) = some [.number literal] := by
    simp [finish?, h.isNumber]
  refine ⟨_, [], [.number literal], hadvance, hfinish, rfl, fun c found hbreak ↦ ?_⟩
  simp [step?, (not_part_of_break hbreak).2, hfinish, hbreak]

theorem hexDigit?_hexDigit : ∀ n < 16, hexDigit? (hexDigit n) = some n := by decide

theorem advance?_control {n : Nat} (h : n < 32) (units : List (Option Nat)) :
    advance? ['\\', 'u', '0', '0', hexDigit (n / 16), hexDigit (n % 16)] (.string units) =
      some (.string (some n :: units), []) := by
  have hhigh := hexDigit?_hexDigit (n / 16) (by omega)
  have hlow := hexDigit?_hexDigit (n % 16) (by omega)
  have hzero : hexDigit? '0' = some 0 := rfl
  have hvalue : n / 16 * 16 + n % 16 = n := Nat.div_add_mod' n 16
  simp [advance?, step?, hhigh, hlow, hzero, hvalue]

theorem advance?_escapeChar (c : Char) (units : List (Option Nat)) :
    advance? (escapeChar c) (.string units) = some (.string (some c.toNat :: units), []) := by
  unfold escapeChar
  repeat' split
  · next h => subst h; rfl
  · next h => subst h; rfl
  · next h => subst h; rfl
  · next h => subst h; rfl
  · next h => subst h; rfl
  · next h => subst h; rfl
  · next h => subst h; rfl
  · next h => exact advance?_control h units
  · next hquote hslash _ _ _ _ _ hplain => simp [advance?, step?, hquote, hslash, hplain]

theorem advance?_flatMap_escapeChar (cs : List Char) (units : List (Option Nat)) :
    advance? (cs.flatMap escapeChar) (.string units) =
      some (.string ((cs.map fun c ↦ some c.toNat).reverse ++ units), []) := by
  induction cs generalizing units with
  | nil => rfl
  | cons c rest ih =>
    rw [List.flatMap_cons, advance?_append (advance?_escapeChar c units), ih]
    simp

theorem not_surrogate (c : Char) : isHighSurrogate c.toNat = false ∧ isLowSurrogate c.toNat = false := by
  have hvalid : c.toNat < 0xD800 ∨ 0xDFFF < c.toNat ∧ c.toNat < 0x110000 := c.valid
  simp only [isHighSurrogate, isLowSurrogate, Bool.and_eq_false_iff, decide_eq_false_iff_not]
  omega

theorem joinUnits_map (cs seen : List Char) :
    joinUnits (cs.map fun c ↦ some c.toNat) seen = some (String.ofList (seen.reverse ++ cs)) := by
  induction cs generalizing seen with
  | nil => simp [joinUnits]
  | cons c rest ih =>
    obtain ⟨hhigh, hlow⟩ := not_surrogate c
    have hrest := ih (c :: seen)
    cases rest with
    | nil => simp [joinUnits, hhigh, hlow]
    | cons d more =>
      simp only [List.map_cons] at hrest ⊢
      simp [joinUnits, hhigh, hlow, hrest]

theorem spells_quote (s : String) : Spells (quote s) [.string (some s)] := by
  have hopen : step? .between '"' = some (.string [], []) := rfl
  have hclose : step? (.string (s.toList.map fun c ↦ some c.toNat).reverse) '"' =
      some (.between, [.string (some s)]) := by
    simp [step?, joinUnits_map]
  refine ⟨.between, [.string (some s)], [], ?_, rfl, rfl, fun _ _ hbreak ↦ hbreak⟩
  rw [quote, List.cons_append, advance?_cons hopen,
    advance?_append (advance?_flatMap_escapeChar s.toList []), List.append_nil, advance?_cons hclose]
  rfl

end Token

open Token

mutual

theorem spells_compactChars : ∀ json, Spelled json → Spells (compactChars json) (tokens json)
  | .null, _ => spells_null
  | .bool b, _ => spells_bool b
  | .number _, h => spells_number h
  | .string (some s), _ => spells_quote s
  | .array items, h => Spells.nil.mark rfl ((spells_compactItems items h).mark rfl .nil)
  | .object members, h => Spells.nil.mark rfl ((spells_compactMembers members h).mark rfl .nil)

theorem spells_compactItems :
    ∀ items, SpelledItems items → Spells (compactItems items) (itemTokens items)
  | [], _ => .nil
  | [item], h => spells_compactChars item h.1
  | item :: next :: rest, h =>
    (spells_compactChars item h.1).mark rfl (spells_compactItems (next :: rest) h.2)

theorem spells_compactMembers :
    ∀ members, SpelledMembers members → Spells (compactMembers members) (memberTokens members)
  | [], _ => .nil
  | [(some name, value)], h => (spells_quote name).mark rfl (spells_compactChars value h.2.1)
  | (some name, value) :: next :: rest, h =>
    ((spells_quote name).mark rfl (spells_compactChars value h.2.1)).mark rfl
      (spells_compactMembers (next :: rest) h.2.2)

end

mutual

theorem spells_indentedChars :
    ∀ depth json, Spelled json → Spells (indentedChars depth json) (tokens json)
  | _, .null, _ => spells_null
  | _, .bool true, _ => spells_bool true
  | _, .bool false, _ => spells_bool false
  | _, .number _, h => spells_number h
  | _, .string (some s), _ => spells_quote s
  | _, .array [], _ => Spells.nil.mark rfl (Spells.nil.mark rfl .nil)
  | depth, .array (item :: rest), h =>
    Spells.nil.mark rfl ((Spells.nil.newLine (depth + 1)
      (spells_indentedItems (depth + 1) (item :: rest) h)).newLine depth (Spells.nil.mark rfl .nil))
  | _, .object [], _ => Spells.nil.mark rfl (Spells.nil.mark rfl .nil)
  | depth, .object (member :: rest), h =>
    Spells.nil.mark rfl ((Spells.nil.newLine (depth + 1)
      (spells_indentedMembers (depth + 1) (member :: rest) h)).newLine depth (Spells.nil.mark rfl .nil))

theorem spells_indentedItems :
    ∀ depth items, SpelledItems items → Spells (indentedItems depth items) (itemTokens items)
  | _, [], _ => .nil
  | depth, [item], h => spells_indentedChars depth item h.1
  | depth, item :: next :: rest, h =>
    (spells_indentedChars depth item h.1).commaNewLine depth
      (spells_indentedItems depth (next :: rest) h.2)

theorem spells_indentedMembers :
    ∀ depth members, SpelledMembers members →
      Spells (indentedMembers depth members) (memberTokens members)
  | _, [], _ => .nil
  | depth, [(some name, value)], h =>
    (spells_quote name).mark rfl (Spells.nil.blank rfl (spells_indentedChars depth value h.2.1))
  | depth, (some name, value) :: next :: rest, h =>
    ((spells_quote name).mark rfl (Spells.nil.blank rfl (spells_indentedChars depth value h.2.1))).commaNewLine
      depth (spells_indentedMembers depth (next :: rest) h.2.2)

end

end OntologyGuard.Json
