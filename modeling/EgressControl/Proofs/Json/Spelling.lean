import EgressControl.Json.Value
import EgressControl.Proofs.Text.Decimal

/-!
# How tokens are spelled

A text spells a list of tokens if it consists of their spellings, with white space anywhere between
them (`Spells`).  Such a text is scanned to these tokens (`Token.scan_of_spells`).

Two of the tokens need care.  A number goes on as long as it can, so that what follows has to end it
(`EndsNumber`).  In a string every character that cannot stand for itself is written as an escape,
and the scanner takes in the character for it (`Scanner.run_escaped`).
-/

namespace EgressControl.Json

/-! ## Numbers -/

namespace NumberPart

/-- The part of a number to which its first character belongs. -/
def start? (c : Char) : Option NumberPart :=
  if c = '-' then some sign
  else if c = '0' then some zero
  else if c.isDigit then some whole
  else none

end NumberPart

/-- A literal is a number: its characters belong to one part after the other, and the last part may
be the end of a number. -/
def IsNumber (literal : String) : Prop :=
  ∃ c cs p q, literal.toList = c :: cs ∧ NumberPart.start? c = some p ∧
    cs.foldlM NumberPart.next p = some q ∧ q.complete = true

/-- No number goes on with this text. -/
def EndsNumber (cs : List Char) : Prop :=
  ∀ c ∈ cs.head?, ∀ p : NumberPart, p.complete = true → p.next c = none

namespace Scanner

/-- A step of the scanner may give tokens, and the rest of the text gives those behind them. -/
private theorem run_cons {s s' : Scanner} {c : Char} {tokens : List Token}
    (h : s.step c = some (tokens, s')) (cs : List Char) :
    s.run (c :: cs) = (s'.run cs).map (tokens ++ ·) := by
  rw [run, h]

/-- A step that gives no token only leads to the next one. -/
private theorem run_cons_silent {s s' : Scanner} {c : Char} (h : s.step c = some ([], s'))
    (cs : List Char) : s.run (c :: cs) = s'.run cs := by
  rw [run_cons h]
  simp

/-- The first character of a number begins it. -/
private theorem step_start {c : Char} {p : NumberPart} (h : NumberPart.start? c = some p) :
    between.step c = some ([], number p [c]) := by
  show stepBetween c = some ([], number p [c])
  unfold NumberPart.start? at h
  split at h
  · next hc => rw [← Option.some.inj h, hc]; rfl
  split at h
  · next hc => rw [← Option.some.inj h, hc]; rfl
  split at h
  · next hminus hzero hdigit =>
    rw [← Option.some.inj h]
    -- A digit is none of the characters that are asked for before.
    have hne {d : Char} (hd : d.isDigit = false) : c ≠ d := fun heq => by
      rw [heq, hd] at hdigit
      exact Bool.false_ne_true hdigit
    have hspace : ¬isSpace c = true := by simp [isSpace, hne]
    rw [stepBetween, if_neg hspace, if_neg (hne rfl), if_neg (hne rfl), if_neg (hne rfl),
      if_neg (hne rfl), if_neg (hne rfl), if_neg (hne rfl), if_neg (hne rfl), if_neg hminus,
      if_neg hzero, if_pos hdigit]
  · simp at h

/-- Characters by which a number goes on are collected, the last one in front. -/
private theorem run_number {p q : NumberPart} {chars cs rest : List Char}
    (h : cs.foldlM NumberPart.next p = some q) :
    (number p chars).run (cs ++ rest) = (number q (cs.reverse ++ chars)).run rest := by
  induction cs generalizing p chars with
  | nil =>
    obtain rfl : p = q := by simpa using h
    rfl
  | cons c cs ih =>
    rw [List.foldlM_cons] at h
    obtain ⟨r, hr, h⟩ := Option.bind_eq_some_iff.mp h
    have hstep : (number p chars).step c = some ([], number r (c :: chars)) := by
      simp only [step, hr]
    rw [List.cons_append, run_cons_silent hstep, ih h]
    simp

/-- A number that is complete becomes a token when something else follows. -/
private theorem run_number_end {q : NumberPart} (hq : q.complete = true) {chars rest : List Char}
    (hrest : EndsNumber rest) :
    (number q chars).run rest =
      (between.run rest).map (.number (.ofList chars.reverse) :: ·) := by
  cases rest with
  | nil => simp [run, finish, hq]
  | cons c cs =>
    -- The character ends the number, and then it is taken in where no token has begun.
    have hstep : (number q chars).step c =
        (stepBetween c).map fun r => (.number (.ofList chars.reverse) :: r.1, r.2) := by
      simp only [step, hrest c rfl q hq, hq, if_true]
    rw [run, run, hstep, show between.step c = stepBetween c from rfl]
    cases stepBetween c with
    | none => rfl
    | some r => simp [Function.comp_def]

/-- A number is read to its end, and becomes one token. -/
private theorem run_literal {literal : String} (h : IsNumber literal) {rest : List Char}
    (hrest : EndsNumber rest) :
    between.run (literal.toList ++ rest) = (between.run rest).map (.number literal :: ·) := by
  obtain ⟨c, cs, p, q, hlist, hc, hcs, hq⟩ := h
  have hliteral : String.ofList (cs.reverse ++ [c]).reverse = literal := by
    rw [List.reverse_append, List.reverse_reverse]
    exact String.toList_inj.mp (by simp [hlist])
  rw [hlist, List.cons_append, run_cons_silent (step_start hc), run_number hcs,
    run_number_end hq hrest, hliteral]

end Scanner

/-! ## Strings -/

namespace Value

/-- A character as it stands in a string. -/
def escaped (c : Char) : List Char := ((escape? c).map String.toList).getD [c]

/-- The pieces of a content are what has been collected, and the rest with escapes. -/
private theorem flatMap_contentPieces (chars cs : List Char) :
    (contentPieces chars cs).flatMap String.toList = chars.reverse ++ cs.flatMap escaped := by
  have hrun (chars : List Char) : (runPiece chars).flatMap String.toList = chars.reverse := by
    cases chars <;> simp [runPiece]
  induction cs generalizing chars with
  | nil => simp [contentPieces, hrun]
  | cons c cs ih =>
    unfold contentPieces
    cases he : escape? c with
    | some e => simp [escaped, he, hrun, ih]
    | none => simp [escaped, he, ih]

/-- A string stands between quotes; one without content is written as half of a surrogate pair. -/
theorem flatMap_stringPieces (content : Option String) :
    (stringPieces content).flatMap String.toList =
      '"' :: ((content.elim "\\ud800".toList fun s => s.toList.flatMap escaped) ++ ['"']) := by
  cases content with
  | none => rfl
  | some s => simp [stringPieces, flatMap_contentPieces]

end Value

namespace Scanner

open Value (escaped escape? flatMap_stringPieces stringPieces)

/-- Hexadecimal digits are read back. -/
private theorem hexDigit?_digitChar {k : Nat} (h : k < 16) :
    hexDigit? (Nat.digitChar k) = some k := by
  revert k
  decide

/-- An escape of four hexadecimal digits adds its code unit to the content. -/
private theorem run_unit (content : Content) {a b c d : Nat} (ha : a < 16) (hb : b < 16)
    (hc : c < 16)
    (hd : d < 16) (rest : List Char) :
    (string content).run ('\\' :: 'u' :: a.digitChar :: b.digitChar :: c.digitChar ::
        d.digitChar :: rest) =
      (string (content.pushUnit (((a * 16 + b) * 16 + c) * 16 + d))).run rest := by
  -- The first three digits leave the state in the escape, the fourth ends it.
  have hdigit {k missing value : Nat} (hk : k < 16) (hmissing : ¬missing ≤ 1) :
      (unit content missing value).step k.digitChar =
        some ([], unit content (missing - 1) (value * 16 + k)) := by
    simp [step, hexDigit?_digitChar hk, hmissing]
  have hlast {value : Nat} : (unit content 1 value).step d.digitChar =
      some ([], string (content.pushUnit (value * 16 + d))) := by
    simp [step, hexDigit?_digitChar hd]
  have hstart : (escape content).step 'u' = some ([], unit content 4 0) := rfl
  rw [run_cons_silent rfl, run_cons_silent hstart, run_cons_silent (hdigit ha (by decide)),
    run_cons_silent (hdigit hb (by decide)), run_cons_silent (hdigit hc (by decide)),
    run_cons_silent hlast, Nat.zero_mul, Nat.zero_add]

/-- What stands for a character in a string is taken in as this character. -/
theorem run_escaped (content : Content) (c : Char) (rest : List Char) :
    (string content).run (escaped c ++ rest) = (string (content.push c)).run rest := by
  have hshort {d e : Char} (hd : unescape? d = some e) (hu : d ≠ 'u') :
      (string content).run ('\\' :: d :: rest) = (string (content.push e)).run rest := by
    have hstep : (escape content).step d = some ([], string (content.push e)) := by
      simp [step, hd, hu]
    rw [run_cons_silent rfl, run_cons_silent hstep]
  unfold escaped escape?
  -- Seven characters have an escape of their own.
  iterate 7
    split
    · next hc => exact hc ▸ hshort rfl (by decide)
  split
  · next hlow =>
    -- The two digits of the character stand behind two zeros.
    have hunit := run_unit content (a := 0) (b := 0) (c := c.toNat / 16) (d := c.toNat % 16)
      (by decide) (by decide) (by omega) (by omega) rest
    rw [show ((0 * 16 + 0) * 16 + c.toNat / 16) * 16 + c.toNat % 16 = c.toNat by omega] at hunit
    have hpush : content.pushUnit c.toNat = content.push c := by
      unfold Content.pushUnit
      rw [if_neg (by omega), if_neg (by omega), Char.ofNat_toNat]
    rw [← hpush, ← hunit]
    -- What is left are the two zeros, which are digits too.
    simp only [Option.map_some, Option.getD_some, String.toList_append, String.toList_ofList]
    rfl
  · next hquote hback _ _ _ _ _ hlow =>
    apply run_cons_silent
    simp [step, hquote, hback, hlow]

/-- The escaped characters of a content and a quote end the string with all of them. -/
private theorem run_content (chars cs rest : List Char) :
    (string ⟨chars, none, false⟩).run (cs.flatMap escaped ++ '"' :: rest) =
      (between.run rest).map (.string (some (.ofList (chars.reverse ++ cs))) :: ·) := by
  induction cs generalizing chars with
  | nil =>
    have hstep : (string ⟨chars, none, false⟩).step '"' =
        some ([.string (some (.ofList chars.reverse))], between) := rfl
    rw [List.append_nil]
    exact run_cons hstep rest
  | cons c cs ih =>
    -- No half of a pair is waiting, so that nothing but the character is added.
    rw [List.flatMap_cons, List.append_assoc, run_escaped,
      show Content.push ⟨chars, none, false⟩ c = ⟨c :: chars, none, false⟩ from rfl, ih]
    simp

/-- The pieces of a string are read as one token. -/
private theorem run_string (content : Option String) (rest : List Char) :
    between.run ((stringPieces content).flatMap String.toList ++ rest) =
      (between.run rest).map (.string content :: ·) := by
  rw [flatMap_stringPieces, List.cons_append, run_cons_silent rfl, List.append_assoc]
  cases content with
  | none =>
    -- After the escape, half of a surrogate pair waits for the other half.
    have hstep : (string ⟨[], some 0xd800, false⟩).step '"' = some ([.string none], between) := rfl
    have hunit := run_unit {} (a := 13) (b := 8) (c := 0) (d := 0) (by decide) (by decide)
      (by decide) (by decide) ('"' :: rest)
    exact hunit.trans (run_cons hstep rest)
  | some s => simpa using run_content [] s.toList rest

/-- The letters of a word such as `null` are read as one token. -/
private theorem run_word (c : Char) (cs : List Char) (token : Token) (rest : List Char) :
    (word (c :: cs) token).run (c :: (cs ++ rest)) = (between.run rest).map (token :: ·) := by
  induction cs generalizing c with
  | nil =>
    have hstep : (word [c] token).step c = some ([token], between) := by simp [step]
    exact run_cons hstep rest
  | cons d ds ih =>
    have hstep : (word (c :: d :: ds) token).step c = some ([], word (d :: ds) token) := by
      simp [step]
    rw [run_cons_silent hstep]
    exact ih d

end Scanner

/-! ## Texts -/

/-- The characters of a token. -/
def Token.spelling : Token → List Char
  | openBrace => ['\x7b']
  | closeBrace => ['\x7d']
  | openBracket => ['[']
  | closeBracket => [']']
  | colon => [':']
  | comma => [',']
  | null => "null".toList
  | bool b => if b then "true".toList else "false".toList
  | number literal => literal.toList
  | string content => (Value.stringPieces content).flatMap String.toList

/-- A text consists of the spellings of these tokens, with white space anywhere between them.  What
follows a number does not go on with it. -/
inductive Spells : List Char → List Token → Prop where
  | nil : Spells [] []
  | space {c : Char} {cs : List Char} {ts : List Token} :
    Scanner.isSpace c = true → Spells cs ts → Spells (c :: cs) ts
  | token {t : Token} {cs : List Char} {ts : List Token} :
    (∀ literal, t = .number literal → IsNumber literal ∧ EndsNumber cs) →
      Spells cs ts → Spells (t.spelling ++ cs) (t :: ts)

namespace Scanner

/-- A mark of one character is a token of its own. -/
private theorem run_mark {c : Char} {t : Token} (h : between.step c = some ([t], between))
    (rest : List Char) : between.run (c :: rest) = (between.run rest).map (t :: ·) :=
  run_cons h rest

/-- Where no token has begun, a token is read from its spelling. -/
private theorem run_spelling {t : Token} {rest : List Char}
    (h : ∀ literal, t = .number literal → IsNumber literal ∧ EndsNumber rest) :
    between.run (t.spelling ++ rest) = (between.run rest).map (t :: ·) := by
  cases t with
  | null => exact (run_cons_silent rfl _).trans (run_word 'u' ['l', 'l'] .null rest)
  | bool b =>
    cases b
    · exact (run_cons_silent rfl _).trans (run_word 'a' ['l', 's', 'e'] (.bool false) rest)
    · exact (run_cons_silent rfl _).trans (run_word 'r' ['u', 'e'] (.bool true) rest)
  | number literal =>
    obtain ⟨hnumber, hrest⟩ := h literal rfl
    exact run_literal hnumber hrest
  | string content => exact run_string content rest
  | _ => exact run_mark rfl rest

end Scanner

/-- A text is scanned to the tokens that it spells. -/
theorem Token.scan_of_spells {text : String} {ts : List Token} (h : Spells text.toList ts) :
    scan text = some ts := by
  unfold scan
  generalize text.toList = cs at h
  induction h with
  | nil => rfl
  | space hc _ ih =>
    have hstep : Scanner.between.step _ = some ([], .between) := if_pos hc
    rw [Scanner.run_cons_silent hstep, ih]
  | token ht _ ih => rw [Scanner.run_spelling ht, ih, Option.map_some]

end EgressControl.Json
