import EgressControl.Proofs.Json.Spelling

/-!
# Values and their texts

A value has one list of tokens (`Value.tokens`).  Every text that spells it is read back as the
value (`Value.parse?_of_spells`), among them the text without white space (`Value.spells_compact`)
and the text over many lines (`Value.spells_pretty`).

A piece of a text does not spell anything on its own, since a number at its end may go on; it stands
for tokens in front of each text that ends a number (`Stands`).
-/

namespace EgressControl.Json

namespace Value

mutual

/-- The tokens of a value. -/
def tokens : Value → List Token
  | null => [.null]
  | bool b => [.bool b]
  | number literal => [.number literal]
  | string content => [.string content]
  | array items => .openBracket :: itemTokens items ++ [.closeBracket]
  | object members => .openBrace :: memberTokens members ++ [.closeBrace]

/-- The tokens of items with commas between them. -/
def itemTokens : List Value → List Token
  | [] => []
  | v :: vs => tokens v ++ moreItemTokens vs

/-- The tokens of items with a comma before each. -/
def moreItemTokens : List Value → List Token
  | [] => []
  | v :: vs => .comma :: tokens v ++ moreItemTokens vs

/-- The tokens of members with commas between them. -/
def memberTokens : List (Option String × Value) → List Token
  | [] => []
  | (k, v) :: ms => .string k :: .colon :: tokens v ++ moreMemberTokens ms

/-- The tokens of members with a comma before each. -/
def moreMemberTokens : List (Option String × Value) → List Token
  | [] => []
  | (k, v) :: ms => .comma :: .string k :: .colon :: tokens v ++ moreMemberTokens ms

end

end Value

/-! ## Reading -/

namespace Reader

open Value (tokens moreItemTokens moreMemberTokens)

/-- In front of a value an array may as well have to go on. -/
private theorem run_firstItem (v : Value) (stack : List Frame) (ts : List Token) :
    (firstItem stack).run (v.tokens ++ ts) = (value (.array [] :: stack)).run (v.tokens ++ ts) := by
  cases v <;> simp [tokens, run, step]

mutual

/-- Where a value is expected, the tokens of `v` are read as `v`. -/
private theorem run_tokens (v : Value) (stack : List Frame) (ts : List Token) :
    (value stack).run (v.tokens ++ ts) = (done v stack).run ts := by
  match v with
  | .null => rfl
  | .bool b => rfl
  | .number literal => rfl
  | .string content => rfl
  | .array [] => rfl
  | .array (v :: vs) =>
    -- The first item, and then the others up to the closing bracket.
    show (firstItem stack).run (v.tokens ++ moreItemTokens vs ++ [.closeBracket] ++ ts) = _
    rw [List.append_assoc, List.append_assoc, run_firstItem, run_tokens v]
    exact run_moreItemTokens vs v [] stack ts
  | .object [] => rfl
  | .object ((k, v) :: ms) =>
    show (value (.object [] k :: stack)).run
      (v.tokens ++ moreMemberTokens ms ++ [.closeBrace] ++ ts) = _
    rw [List.append_assoc, List.append_assoc, run_tokens v]
    exact run_moreMemberTokens ms k v [] stack ts

/-- Behind an item, the tokens of further items and a bracket end the array with all of them. -/
private theorem run_moreItemTokens (vs : List Value) (v : Value) (items : List Value)
    (stack : List Frame) (ts : List Token) :
    (done v (.array items :: stack)).run (moreItemTokens vs ++ .closeBracket :: ts) =
      (done (.array (items.reverse ++ v :: vs)) stack).run ts := by
  match vs with
  | [] => simp [moreItemTokens, run, step]
  | w :: vs =>
    show (value (.array (v :: items) :: stack)).run
      (w.tokens ++ moreItemTokens vs ++ .closeBracket :: ts) = _
    rw [List.append_assoc, run_tokens w, run_moreItemTokens vs]
    simp

/-- Behind a member, the tokens of further members and a brace end the object with all of them. -/
private theorem run_moreMemberTokens (ms : List (Option String × Value)) (k : Option String)
    (v : Value)
    (members : List (Option String × Value)) (stack : List Frame) (ts : List Token) :
    (done v (.object members k :: stack)).run (moreMemberTokens ms ++ .closeBrace :: ts) =
      (done (.object (members.reverse ++ (k, v) :: ms)) stack).run ts := by
  match ms with
  | [] => simp [moreMemberTokens, run, step]
  | (l, w) :: ms =>
    show (value (.object ((k, v) :: members) l :: stack)).run
      (w.tokens ++ moreMemberTokens ms ++ .closeBrace :: ts) = _
    rw [List.append_assoc, run_tokens w, run_moreMemberTokens ms]
    simp

end

end Reader

/-- A text that spells a value is read as this value. -/
theorem Value.parse?_of_spells {text : String} {v : Value} (h : Spells text.toList v.tokens) :
    parse? text = some v := by
  rw [parse?, Token.scan_of_spells h]
  simpa [Reader.run] using Reader.run_tokens v [] []

/-! ## Pieces of texts -/

/-- A piece of a text stands for these tokens, in front of each text that ends a number. -/
def Stands (cs : List Char) (ts : List Token) : Prop :=
  ∀ ⦃rest us⦄, EndsNumber rest → Spells rest us → Spells (cs ++ rest) (ts ++ us)

/-- White space only. -/
def Blank (cs : List Char) : Prop := ∀ c ∈ cs, Scanner.isSpace c = true

/-- The characters behind a value. -/
def delimiters : List Char := [',', ']', '\x7d', ' ', '\n', '\t', '\r']

/-- White space may stand behind a value. -/
private theorem mem_delimiters_of_isSpace {c : Char} (h : Scanner.isSpace c = true) :
    c ∈ delimiters := by
  simp only [Scanner.isSpace, Bool.or_eq_true, decide_eq_true_eq] at h
  rcases h with ((rfl | rfl) | rfl) | rfl <;> decide

/-- No number goes on with one of the `delimiters`. -/
private theorem endsNumber_cons {c : Char} (h : c ∈ delimiters) (cs : List Char) :
    EndsNumber (c :: cs) := by
  intro d hd p hp
  obtain rfl : c = d := by simpa using hd
  have hnext : delimiters.all (fun c => (p.next c).isNone) = true := by
    cases p <;> first | contradiction | decide
  exact Option.isNone_iff_eq_none.mp (List.all_eq_true.mp hnext c h)

namespace Stands

variable {cs : List Char} {ts : List Token}

/-- No characters stand for no tokens. -/
private theorem nil : Stands [] [] := fun _ _ _ h => h

/-- White space in front stands for no tokens. -/
private theorem blank {w : List Char} (hw : Blank w) (h : Stands cs ts) : Stands (w ++ cs) ts := by
  intro rest us hrest hspells
  induction w with
  | nil => exact h hrest hspells
  | cons c w ih =>
    obtain ⟨hc, hw⟩ := List.forall_mem_cons.mp hw
    exact .space hc (ih hw)

/-- A token other than a number may stand in front of everything. -/
private theorem cons {t : Token} (ht : ∀ literal, t ≠ .number literal) (h : Stands cs ts) :
    Stands (t.spelling ++ cs) (t :: ts) := by
  intro rest us hrest hspells
  rw [List.append_assoc]
  exact .token (fun literal hl => absurd hl (ht literal)) (h hrest hspells)

/-- A token other than a number is a piece of its own. -/
private theorem single {t : Token} (ht : ∀ literal, t ≠ .number literal) :
    Stands t.spelling [t] := by
  simpa using cons ht nil

/-- A number stands for itself where it comes to its end. -/
private theorem number {literal : String} (h : IsNumber literal) :
    Stands literal.toList [.number literal] := by
  intro rest us hrest hspells
  apply Spells.token (t := .number literal) _ hspells
  rintro _ ⟨⟩
  exact ⟨h, hrest⟩

end Stands

/-- What may follow a value.  It stands for these tokens, and a number ends in front of it. -/
structure Continues (cs : List Char) (ts : List Token) : Prop where
  stands : Stands cs ts
  ends : ∀ ⦃rest⦄, EndsNumber rest → EndsNumber (cs ++ rest)

/-- A piece may be followed by one that `Continues` it. -/
private theorem Stands.append {cs ds : List Char} {ts us : List Token} (h : Stands cs ts)
    (h' : Continues ds us) : Stands (cs ++ ds) (ts ++ us) := by
  intro rest vs hrest hspells
  rw [List.append_assoc, List.append_assoc]
  exact h (h'.ends hrest) (h'.stands hrest hspells)

namespace Continues

variable {cs ds : List Char} {ts us : List Token}

/-- Nothing need follow. -/
private theorem nil : Continues [] [] := ⟨Stands.nil, fun _ h => h⟩

/-- Two pieces that may follow a value may follow it one after the other. -/
private theorem append (h : Continues cs ts) (h' : Continues ds us) :
    Continues (cs ++ ds) (ts ++ us) where
  stands := h.stands.append h'
  ends rest hrest := by
    rw [List.append_assoc]
    exact h.ends (h'.ends hrest)

/-- White space may stand in front of what follows. -/
private theorem blank {w : List Char} (hw : Blank w) (h : Continues cs ts) :
    Continues (w ++ cs) ts where
  stands := h.stands.blank hw
  ends rest hrest := by
    match w with
    | [] => exact h.ends hrest
    | c :: w =>
      exact endsNumber_cons (mem_delimiters_of_isSpace (hw c List.mem_cons_self)) _

/-- A comma and what stands behind it may follow a value. -/
private theorem comma (h : Stands cs ts) : Continues (',' :: cs) (.comma :: ts) where
  stands := h.cons (t := .comma) nofun
  ends _ _ := endsNumber_cons (by decide) _

/-- A bracket may follow a value, and ends an array. -/
private theorem closeBracket : Continues [']'] [.closeBracket] where
  stands := Stands.single (t := .closeBracket) nofun
  ends _ _ := endsNumber_cons (by decide) _

/-- A brace may follow a value, and ends an object. -/
private theorem closeBrace : Continues ['\x7d'] [.closeBrace] where
  stands := Stands.single (t := .closeBrace) nofun
  ends _ _ := endsNumber_cons (by decide) _

end Continues

/-! ## Writing -/

namespace Value

/-- Every number in the value is one. -/
def Valid (v : Value) : Prop := ∀ literal, .number literal ∈ v.tokens → IsNumber literal

section Brackets

variable {k : Option String} {v : Value} {vs : List Value} {ms : List (Option String × Value)}
  {w x cs ds : List Char}

/-- An array, with white space around its items. -/
private theorem stands_array (hw : Blank w) (hv : Stands cs v.tokens)
    (hvs : Continues ds (moreItemTokens vs)) (hx : Blank x) :
    Stands ('[' :: (w ++ (cs ++ (ds ++ (x ++ [']']))))) (array (v :: vs)).tokens := by
  have hclose := hvs.append (.blank hx .closeBracket)
  have hopen := Stands.cons (t := .openBracket) nofun ((hv.append hclose).blank hw)
  simpa [tokens, itemTokens, Token.spelling] using hopen

/-- A comma, white space, an item and further items may follow a value. -/
private theorem continues_moreItems (hw : Blank w) (hv : Stands cs v.tokens)
    (hvs : Continues ds (moreItemTokens vs)) :
    Continues (',' :: (w ++ (cs ++ ds))) (moreItemTokens (v :: vs)) := by
  simpa [moreItemTokens] using Continues.comma ((hv.append hvs).blank hw)

/-- A member, with white space in front of the value. -/
private theorem stands_member (hw : Blank w) (hv : Stands cs v.tokens) :
    Stands ((stringPieces k).flatMap String.toList ++ (':' :: (w ++ cs)))
      (.string k :: .colon :: v.tokens) :=
  .cons (t := .string k) nofun (.cons (t := .colon) nofun (hv.blank hw))

/-- An object, with white space around its members. -/
private theorem stands_object (hw : Blank w) (hv : Stands cs (.string k :: .colon :: v.tokens))
    (hms : Continues ds (moreMemberTokens ms)) (hx : Blank x) :
    Stands ('\x7b' :: (w ++ (cs ++ (ds ++ (x ++ ['\x7d']))))) (object ((k, v) :: ms)).tokens := by
  have hclose := hms.append (.blank hx .closeBrace)
  have hopen := Stands.cons (t := .openBrace) nofun ((hv.append hclose).blank hw)
  simpa [tokens, memberTokens, Token.spelling] using hopen

/-- A comma, white space, a member and further members may follow a value. -/
private theorem continues_moreMembers (hw : Blank w)
    (hv : Stands cs (.string k :: .colon :: v.tokens))
    (hms : Continues ds (moreMemberTokens ms)) :
    Continues (',' :: (w ++ (cs ++ ds))) (moreMemberTokens ((k, v) :: ms)) := by
  simpa [moreMemberTokens] using Continues.comma ((hv.append hms).blank hw)

end Brackets

/-! ### Validity of the parts -/

@[simp] theorem valid_number {literal : String} : (number literal).Valid ↔ IsNumber literal := by
  simp [Valid, tokens]

/-- The numbers in an array are those in its items. -/
private theorem mem_itemTokens {literal : String} {vs : List Value} :
    .number literal ∈ itemTokens vs ↔ ∃ v ∈ vs, .number literal ∈ v.tokens := by
  have hmore : .number literal ∈ moreItemTokens vs ↔ ∃ v ∈ vs, .number literal ∈ v.tokens := by
    induction vs with
    | nil => simp [moreItemTokens]
    | cons v vs ih => simp [moreItemTokens, ih]
  cases vs with
  | nil => simp [itemTokens]
  | cons v vs => simpa [itemTokens, moreItemTokens] using hmore

/-- The numbers in an object are those in the values of its members. -/
private theorem mem_memberTokens {literal : String} {ms : List (Option String × Value)} :
    .number literal ∈ memberTokens ms ↔ ∃ m ∈ ms, .number literal ∈ m.2.tokens := by
  have hmore :
      .number literal ∈ moreMemberTokens ms ↔ ∃ m ∈ ms, .number literal ∈ m.2.tokens := by
    induction ms with
    | nil => simp [moreMemberTokens]
    | cons m ms ih => simp [moreMemberTokens, ih]
  cases ms with
  | nil => simp [memberTokens]
  | cons m ms => simpa [memberTokens, moreMemberTokens] using hmore

@[simp] theorem valid_array {vs : List Value} : (array vs).Valid ↔ ∀ v ∈ vs, v.Valid := by
  simp only [Valid, tokens, List.mem_cons, List.mem_append, mem_itemTokens]
  simp only [List.not_mem_nil]
  grind

@[simp] theorem valid_object {ms : List (Option String × Value)} :
    (object ms).Valid ↔ ∀ m ∈ ms, m.2.Valid := by
  simp only [Valid, tokens, List.mem_cons, List.mem_append, mem_memberTokens]
  grind

/-! ### Without white space -/

/-- Two brackets stand for the array without items. -/
private theorem stands_emptyArray : Stands ['[', ']'] (array []).tokens :=
  .cons (t := .openBracket) nofun (.single (t := .closeBracket) nofun)

/-- Two braces stand for the object without members. -/
private theorem stands_emptyObject : Stands ['\x7b', '\x7d'] (object []).tokens :=
  .cons (t := .openBrace) nofun (.single (t := .closeBrace) nofun)

/-- The pieces of a truth value stand for its token. -/
private theorem stands_bool (b : Bool) :
    Stands ((bool b).pieces.flatMap String.toList) (bool b).tokens := by
  have h := Stands.single (t := .bool b) nofun
  cases b
  · simpa [pieces, tokens, Token.spelling] using h
  · simpa [pieces, tokens, Token.spelling] using h

private theorem blank_nil : Blank [] := nofun

mutual

/-- The pieces of a `Valid` value stand for its tokens. -/
private theorem stands_pieces (v : Value) (hv : v.Valid) :
    Stands (v.pieces.flatMap String.toList) v.tokens := by
  -- The recursion of `pieces`, with nothing blank between the tokens.
  match v with
  | .null => exact Stands.single (t := .null) nofun
  | .bool b => exact stands_bool b
  | .number literal => simpa [pieces, tokens] using Stands.number (valid_number.mp hv)
  | .string content => exact Stands.single (t := .string content) nofun
  | .array [] => exact stands_emptyArray
  | .array (v :: vs) =>
    rw [valid_array, List.forall_mem_cons] at hv
    have harray := stands_array blank_nil (stands_pieces v hv.1)
      (continues_moreItemPieces vs hv.2) blank_nil
    simpa [pieces, itemPieces] using harray
  | .object [] => exact stands_emptyObject
  | .object ((k, v) :: ms) =>
    rw [valid_object, List.forall_mem_cons] at hv
    have hmember := stands_member (k := k) blank_nil (stands_pieces v hv.1)
    have hobject := stands_object blank_nil hmember (continues_moreMemberPieces ms hv.2) blank_nil
    simpa [pieces, memberPieces] using hobject

/-- The pieces of further `Valid` items may follow an item. -/
private theorem continues_moreItemPieces (vs : List Value) (hvs : ∀ v ∈ vs, v.Valid) :
    Continues ((moreItemPieces vs).flatMap String.toList) (moreItemTokens vs) := by
  match vs with
  | [] => exact .nil
  | v :: vs =>
    rw [List.forall_mem_cons] at hvs
    have hitems := continues_moreItems blank_nil (stands_pieces v hvs.1)
      (continues_moreItemPieces vs hvs.2)
    simpa [moreItemPieces] using hitems

/-- The pieces of further members with `Valid` values may follow a member. -/
private theorem continues_moreMemberPieces (ms : List (Option String × Value))
    (hms : ∀ m ∈ ms, m.2.Valid) :
    Continues ((moreMemberPieces ms).flatMap String.toList) (moreMemberTokens ms) := by
  match ms with
  | [] => exact .nil
  | (k, v) :: ms =>
    rw [List.forall_mem_cons] at hms
    have hmember := stands_member (k := k) blank_nil (stands_pieces v hms.1)
    have hmembers := continues_moreMembers blank_nil hmember (continues_moreMemberPieces ms hms.2)
    simpa [moreMemberPieces] using hmembers

end

/-! ### Over many lines -/

/-- The end of a line and the spaces at the beginning of the next one. -/
private theorem blank_line (depth : Nat) : Blank ('\n' :: (indentation depth).toList) := by
  intro c hc
  rw [List.mem_cons, indentation, String.toList_ofList] at hc
  rcases hc with rfl | hc
  · rfl
  · rw [List.eq_of_mem_replicate hc]
    rfl

private theorem blank_space : Blank [' '] := by simp [Blank, Scanner.isSpace]

mutual

/-- The pretty text of a `Valid` value stands for its tokens, however far it is indented. -/
private theorem stands_prettyAt (depth : Nat) (v : Value) (hv : v.Valid) :
    Stands (v.prettyAt depth).toList v.tokens := by
  -- The recursion of `prettyAt`: the first element or member here, the others in the mutual
  -- lemmas.
  match v with
  | .null => exact Stands.single (t := .null) nofun
  | .bool b => simpa [prettyAt] using stands_bool b
  | .number literal => simpa [prettyAt] using stands_pieces (.number literal) hv
  | .string content => simpa [prettyAt] using stands_pieces (.string content) hv
  | .array [] => simpa [prettyAt] using stands_emptyArray
  | .array (v :: vs) =>
    rw [valid_array, List.forall_mem_cons] at hv
    have harray := stands_array (blank_line (depth + 1)) (stands_prettyAt (depth + 1) v hv.1)
      (continues_prettyItems (depth + 1) vs hv.2) (blank_line depth)
    simpa [prettyAt] using harray
  | .object [] => simpa [prettyAt] using stands_emptyObject
  | .object ((k, v) :: ms) =>
    rw [valid_object, List.forall_mem_cons] at hv
    have hmember := stands_member (k := k) blank_space (stands_prettyAt (depth + 1) v hv.1)
    have hobject := stands_object (blank_line (depth + 1)) hmember
      (continues_prettyMembers (depth + 1) ms hv.2) (blank_line depth)
    simpa [prettyAt] using hobject

/-- The pretty text of further `Valid` items may follow an item. -/
private theorem continues_prettyItems (depth : Nat) (vs : List Value) (hvs : ∀ v ∈ vs, v.Valid) :
    Continues (prettyItems depth vs).toList (moreItemTokens vs) := by
  match vs with
  | [] => exact .nil
  | v :: vs =>
    rw [List.forall_mem_cons] at hvs
    have hitems := continues_moreItems (blank_line depth) (stands_prettyAt depth v hvs.1)
      (continues_prettyItems depth vs hvs.2)
    simpa [prettyItems] using hitems

/-- The pretty text of further members with `Valid` values may follow a member. -/
private theorem continues_prettyMembers (depth : Nat) (ms : List (Option String × Value))
    (hms : ∀ m ∈ ms, m.2.Valid) :
    Continues (prettyMembers depth ms).toList (moreMemberTokens ms) := by
  match ms with
  | [] => exact .nil
  | (k, v) :: ms =>
    rw [List.forall_mem_cons] at hms
    have hmember := stands_member (k := k) blank_space (stands_prettyAt depth v hms.1)
    have hmembers := continues_moreMembers (blank_line depth) hmember
      (continues_prettyMembers depth ms hms.2)
    simpa [prettyMembers] using hmembers

end

/-! ### Whole texts -/

private theorem endsNumber_nil : EndsNumber [] := nofun

/-- `compact` spells the tokens of every `Valid` value. -/
theorem spells_compact {v : Value} (hv : v.Valid) : Spells v.compact.toList v.tokens := by
  simpa [compact] using stands_pieces v hv endsNumber_nil .nil

/-- `pretty` spells the tokens of every `Valid` value. -/
theorem spells_pretty {v : Value} (hv : v.Valid) : Spells v.pretty.toList v.tokens := by
  simpa [pretty] using stands_prettyAt 0 v hv endsNumber_nil .nil

/-- What is written without white space is read back. -/
theorem parse?_compact {v : Value} (hv : v.Valid) : parse? v.compact = some v :=
  parse?_of_spells (spells_compact hv)

/-- What is written over many lines is read back. -/
theorem parse?_pretty {v : Value} (hv : v.Valid) : parse? v.pretty = some v :=
  parse?_of_spells (spells_pretty hv)

end Value

end EgressControl.Json
