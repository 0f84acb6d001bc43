/-! # Cutting text at characters

`cut` takes a text apart at every character of a class, `cutFirst` at the first occurrence of
one character, and `lines` at line ends.  `occursIn` is the substring test. -/

namespace EgressControl.Text

/-- The pieces of a text between the characters of a class; there is one piece more than there
are such characters. -/
def cut (sep : Char → Bool) : List Char → List (List Char)
  | [] => [[]]
  | c :: cs => if sep c then [] :: cut sep cs else (cut sep cs).modifyHead (c :: ·)

/-- What stands before and after the first occurrence of a character. -/
def cutFirst (sep : Char) : List Char → Option (List Char × List Char)
  | [] => none
  | c :: cs =>
    if c = sep then some ([], cs) else (cutFirst sep cs).map fun (l, r) => (c :: l, r)

/-- Drops a carriage return at the very end. -/
def dropReturn : List Char → List Char
  | [] => []
  | [c] => if c = '\r' then [] else [c]
  | c :: d :: cs => c :: dropReturn (d :: cs)

/-- The lines of a list of pieces: all but the last ended at a line feed, and an empty last
piece is no line. -/
def linesOf : List (List Char) → List (List Char)
  | [] => []
  | [last] => if last.isEmpty then [] else [last]
  | l :: m :: ls => dropReturn l :: linesOf (m :: ls)

/-- The lines of a text.  A line ends at a line feed, a carriage return before it belongs to the
line end, and text after the last line feed is a line if there is any. -/
def lines (cs : List Char) : List (List Char) := linesOf (cut (· = '\n') cs)

/-- Whether a text contains another one. -/
def occursIn (needle : List Char) : List Char → Bool
  | [] => needle.isEmpty
  | c :: cs => needle.isPrefixOf (c :: cs) || occursIn needle cs

/-- `cut` gives one piece at least, even of an empty text. -/
theorem cut_ne_nil (sep : Char → Bool) (cs : List Char) : cut sep cs ≠ [] := by
  cases cs with
  | nil => simp [cut]
  | cons c cs =>
    simp only [cut]
    split
    · simp
    · simpa [List.modifyHead_eq_nil_iff] using cut_ne_nil sep cs

/-- A text without separators is cut into one piece. -/
theorem cut_of_forall {sep : Char → Bool} {cs : List Char} (h : ∀ c ∈ cs, sep c = false) :
    cut sep cs = [cs] := by
  induction cs with
  | nil => rfl
  | cons c cs ih =>
    obtain ⟨hc, hcs⟩ := List.forall_mem_cons.mp h
    simp [cut, hc, ih hcs]

/-- A text without the character at which it is cut is one piece. -/
theorem cut_of_notMem {c : Char} {cs : List Char} (h : c ∉ cs) : cut (· = c) cs = [cs] :=
  cut_of_forall fun _ hd => decide_eq_false fun heq => h (heq ▸ hd)

/-- A character of the class between two texts keeps their pieces apart. -/
theorem cut_append_cons {sep : Char → Bool} {c : Char} (h : sep c = true) (cs ds : List Char) :
    cut sep (cs ++ c :: ds) = cut sep cs ++ cut sep ds := by
  induction cs with
  | nil => simp [cut, h]
  | cons e cs ih =>
    simp only [List.cons_append, cut, ih]
    split
    · rfl
    · obtain ⟨l, ls, hl⟩ := List.exists_cons_of_ne_nil (cut_ne_nil sep cs)
      simp [hl]

/-- The first occurrence is where a text is cut, and nothing is lost. -/
theorem cutFirst_eq_some_iff {sep : Char} {cs l r : List Char} :
    cutFirst sep cs = some (l, r) ↔ cs = l ++ sep :: r ∧ sep ∉ l := by
  induction cs generalizing l with
  | nil => simp [cutFirst]
  | cons c cs ih =>
    -- At a separator the cut is made here, with nothing before it; elsewhere it is the
    -- tail's.
    by_cases hc : c = sep
    · subst hc
      simp only [cutFirst, if_true, Option.some.injEq, Prod.mk.injEq]
      constructor
      · rintro ⟨rfl, rfl⟩
        simp
      · rintro ⟨h, hl⟩
        match l with
        | [] => simpa using h
        | e :: l => simp_all
    · simp only [cutFirst, hc, if_false, Option.map_eq_some_iff, Prod.exists, Prod.mk.injEq]
      constructor
      · rintro ⟨l', r', h, rfl, rfl⟩
        obtain ⟨rfl, hl⟩ := ih.mp h
        simp [hl, Ne.symm hc]
      · rintro ⟨h, hl⟩
        match l with
        | [] => simp_all
        | e :: l =>
          simp only [List.cons_append, List.cons.injEq] at h
          obtain ⟨rfl, rfl⟩ := h
          exact ⟨l, r, ih.mpr ⟨rfl, fun hm => hl (List.mem_cons_of_mem _ hm)⟩, rfl, rfl⟩

/-- `cutFirst` fails exactly if there is no separator in the text. -/
theorem cutFirst_eq_none_iff {sep : Char} {cs : List Char} : cutFirst sep cs = none ↔ sep ∉ cs := by
  constructor
  · intro hnone hmem
    obtain ⟨l, r, rfl, hl⟩ := List.eq_append_cons_of_mem hmem
    rw [cutFirst_eq_some_iff.mpr ⟨rfl, hl⟩] at hnone
    contradiction
  -- A cut would put the separator among the characters.
  · intro hnot
    rw [Option.eq_none_iff_forall_ne_some]
    rintro ⟨l, r⟩ hcut
    obtain ⟨rfl, -⟩ := cutFirst_eq_some_iff.mp hcut
    exact hnot (by simp)

/-- `occursIn` says whether a text stands anywhere in another one, without gaps. -/
theorem occursIn_iff {needle cs : List Char} : occursIn needle cs = true ↔ needle <:+: cs := by
  induction cs with
  | nil => simp [occursIn, List.isEmpty_iff]
  | cons c cs ih =>
    rw [occursIn, Bool.or_eq_true, ih, List.isPrefixOf_iff_prefix, List.infix_cons_iff]

end EgressControl.Text
