import EgressControl.Proofs.Json.RoundTrip

/-!
# One line for each value

The text of a value without white space consists of the spellings of its tokens, one after the other
(`Value.toList_compact`).  No control character stands in it, whatever strings the value holds
(`Value.printable_compact`), so that it is one line.
-/

namespace EgressControl.Json

/-- Not a control character below the space. -/
def Printable (c : Char) : Prop := 0x20 ≤ c.toNat

instance : DecidablePred Printable := fun c => inferInstanceAs (Decidable (0x20 ≤ c.toNat))

/-- `Printable` can be decided for a list of characters at once. -/
private theorem printable_of_all {cs : List Char} (h : cs.all (decide <| Printable ·) = true) :
    ∀ c ∈ cs, Printable c := fun c hc => of_decide_eq_true (List.all_eq_true.mp h c hc)

/-- Digits are `Printable`. -/
private theorem printable_of_isDigit {c : Char} (h : c.isDigit = true) : Printable c := by
  simp only [Char.isDigit, Bool.and_eq_true, decide_eq_true_eq] at h
  have hzero : '0'.val.toNat ≤ c.val.toNat := UInt32.le_iff_toNat_le.mp h.1
  exact Nat.le_trans (by decide) hzero

/-- A character with which a number begins or goes on. -/
private theorem NumberPart.printable_of_next {p q : NumberPart} {c : Char} (h : p.next c = some q) :
    Printable c := by
  apply Decidable.byContradiction
  intro hlow
  -- Each character that `next` accepts is printable, so an unprintable one is none of them.
  have hne {d : Char} (hd : Printable d) : c ≠ d := fun heq => hlow (heq ▸ hd)
  have hdigit : c.isDigit = false :=
    Bool.eq_false_iff.mpr fun hdigit => hlow (printable_of_isDigit hdigit)
  have hzero : c ≠ '0' := hne (by decide)
  have hpoint : c ≠ '.' := hne (by decide)
  have hexponent : c ≠ 'e' ∧ c ≠ 'E' := ⟨hne (by decide), hne (by decide)⟩
  have hsign : c ≠ '+' ∧ c ≠ '-' := ⟨hne (by decide), hne (by decide)⟩
  cases p <;> simp [next, hdigit, hzero, hpoint, hexponent, hsign] at h

/-- A number begins with a `Printable` character. -/
private theorem NumberPart.printable_of_start {p : NumberPart} {c : Char} (h : start? c = some p) :
    Printable c := by
  unfold start? at h
  split at h
  · next hc => exact hc ▸ by decide
  split at h
  · next hc => exact hc ▸ by decide
  split at h
  · next hc => exact printable_of_isDigit hc
  · simp at h

/-- The characters by which a number goes on are `Printable`. -/
private theorem printable_of_foldlM {p q : NumberPart} {cs : List Char}
    (h : cs.foldlM NumberPart.next p = some q) : ∀ c ∈ cs, Printable c := by
  induction cs generalizing p with
  | nil => simp
  | cons c cs ih =>
    rw [List.foldlM_cons] at h
    obtain ⟨r, hr, h⟩ := Option.bind_eq_some_iff.mp h
    exact List.forall_mem_cons.mpr ⟨NumberPart.printable_of_next hr, ih h⟩

/-- Numbers are made of `Printable` characters. -/
private theorem IsNumber.printable {literal : String} (h : IsNumber literal) :
    ∀ c ∈ literal.toList, Printable c := by
  obtain ⟨c, cs, p, q, hlist, hc, hcs, -⟩ := h
  rw [hlist, List.forall_mem_cons]
  exact ⟨NumberPart.printable_of_start hc, printable_of_foldlM hcs⟩

namespace Value

/-- Hexadecimal digits are `Printable`. -/
private theorem printable_digitChar {k : Nat} (h : k < 16) : Printable k.digitChar := by
  revert k
  decide

/-- `escaped` writes every character in `Printable` ones. -/
private theorem printable_escaped (c : Char) : ∀ d ∈ escaped c, Printable d := by
  intro d h
  have hclosed {e : String} (he : ∀ d ∈ e.toList, Printable d)
      (h : d ∈ ((some e).map String.toList).getD [c]) : Printable d := he d h
  unfold escaped escape? at h
  -- Seven characters have an escape of their own.
  iterate 7
    split at h
    · exact hclosed (printable_of_all (by decide)) h
  split at h
  · next hlow =>
    apply hclosed _ h
    have hhigh : Printable (Nat.digitChar (c.toNat / 16)) := printable_digitChar (by omega)
    have hlast : Printable (Nat.digitChar (c.toNat % 16)) := printable_digitChar (by omega)
    simp only [String.toList_append, String.toList_ofList, List.forall_mem_append,
      List.forall_mem_cons]
    exact ⟨printable_of_all (by decide), hhigh, hlast, by simp⟩
  · next hlow =>
    rw [List.mem_singleton.mp h]
    exact Nat.le_of_not_lt hlow

end Value

/-- Tokens are spelled in `Printable` characters, as long as their numbers are numbers of JSON. -/
private theorem Token.printable_spelling {t : Token}
    (h : ∀ literal, t = .number literal → IsNumber literal) : ∀ c ∈ t.spelling, Printable c := by
  cases t with
  | number literal => exact (h literal rfl).printable
  | string content =>
    rw [spelling, Value.flatMap_stringPieces]
    -- Whatever a string holds, it is written by `escaped`, which leaves nothing
    -- unprintable.
    have hcontent : ∀ c ∈ content.elim "\\ud800".toList fun s => s.toList.flatMap Value.escaped,
        Printable c := by
      cases content with
      | none => exact printable_of_all (by decide)
      | some s =>
        intro c hc
        obtain ⟨d, -, hd⟩ := List.mem_flatMap.mp hc
        exact Value.printable_escaped d c hd
    simp only [List.forall_mem_cons, List.forall_mem_append]
    exact ⟨by decide, hcontent, by decide, by simp⟩
  | bool b => cases b <;> exact printable_of_all (by decide)
  | _ => exact printable_of_all (by decide)

namespace Value

mutual

/-- The `pieces` of a value are the spellings of its tokens, one after the other. -/
private theorem flatMap_pieces (v : Value) :
    v.pieces.flatMap String.toList = v.tokens.flatMap Token.spelling := by
  -- The recursion of `pieces` and of `tokens`, which is the same one.
  match v with
  | .null => rfl
  | .bool true => rfl
  | .bool false => rfl
  | .number literal => rfl
  | .string content => simp [pieces, tokens, Token.spelling]
  | .array [] => rfl
  | .array (v :: vs) =>
    simp [pieces, itemPieces, tokens, itemTokens, Token.spelling, flatMap_pieces v,
      flatMap_moreItemPieces vs]
  | .object [] => rfl
  | .object ((k, v) :: ms) =>
    simp [pieces, memberPieces, tokens, memberTokens, Token.spelling, flatMap_pieces v,
      flatMap_moreMemberPieces ms]

/-- The pieces of further items are the spellings of their tokens. -/
private theorem flatMap_moreItemPieces (vs : List Value) :
    (moreItemPieces vs).flatMap String.toList = (moreItemTokens vs).flatMap Token.spelling := by
  match vs with
  | [] => rfl
  | v :: vs =>
    simp [moreItemPieces, moreItemTokens, Token.spelling, flatMap_pieces v,
      flatMap_moreItemPieces vs]

/-- The pieces of further members are the spellings of their tokens. -/
private theorem flatMap_moreMemberPieces (ms : List (Option String × Value)) :
    (moreMemberPieces ms).flatMap String.toList = (moreMemberTokens ms).flatMap Token.spelling := by
  match ms with
  | [] => rfl
  | (k, v) :: ms =>
    simp [moreMemberPieces, moreMemberTokens, Token.spelling, flatMap_pieces v,
      flatMap_moreMemberPieces ms]

end

/-- `compact` spells the tokens of a value, with nothing between them. -/
theorem toList_compact (v : Value) : v.compact.toList = v.tokens.flatMap Token.spelling := by
  rw [compact, String.toList_join, flatMap_pieces]

/-- Whatever strings a value holds, its text has no control characters. -/
theorem printable_compact {v : Value} (hv : v.Valid) : ∀ c ∈ v.compact.toList, Printable c := by
  intro c hc
  rw [toList_compact] at hc
  obtain ⟨t, ht, hc⟩ := List.mem_flatMap.mp hc
  exact Token.printable_spelling (fun literal hliteral => hv literal (hliteral ▸ ht)) c hc

end Value

end EgressControl.Json
