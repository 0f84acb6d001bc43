import EgressControl.Text.Blank
import Mathlib.Data.List.DropRight

/-!
# Trimmed texts and words

A text is trimmed if it neither begins nor ends with white space (`Trimmed`).  `trimChars` makes a
text trimmed, leaves a trimmed text as it is, and does not see white space that is put around a text
(`trimChars_padded`).

The words of a text are known from its parts: white space between two parts keeps their words apart
(`words_append_cons`), and white space around a text makes no difference (`words_padded`).
-/

namespace EgressControl.Text

variable {cs before after : List Char}

/-- Nothing but white space. -/
def AllBlank (cs : List Char) : Prop := ∀ c ∈ cs, isBlank c = true

/-- No white space at all. -/
def Solid (cs : List Char) : Prop := ∀ c ∈ cs, isBlank c = false

instance (cs : List Char) : Decidable (AllBlank cs) :=
  List.decidableBAll (isBlank · = true) cs

instance (cs : List Char) : Decidable (Solid cs) :=
  List.decidableBAll (isBlank · = false) cs

/-- No white space at the beginning, and none at the end. -/
structure Trimmed (cs : List Char) : Prop where
  head : ∀ h : cs ≠ [], isBlank (cs.head h) = false
  last : ∀ h : cs ≠ [], isBlank (cs.getLast h) = false

/-- A character that is no white space does not stand in white space. -/
theorem AllBlank.notMem {c : Char} (h : AllBlank cs) (hc : isBlank c = false) : c ∉ cs :=
  fun hmem => Bool.eq_false_iff.mp hc (h c hmem)

/-- A text without white space has none at its ends. -/
theorem Solid.trimmed (h : Solid cs) : Trimmed cs :=
  ⟨fun hne => h _ (List.head_mem hne), fun hne => h _ (List.getLast_mem hne)⟩

/-- Digits are no white space. -/
theorem isBlank_of_isDigit {c : Char} (h : c.isDigit = true) : isBlank c = false := by
  have hbounds : 48 ≤ c.toNat ∧ c.toNat ≤ 57 := by
    simpa [Char.isDigit, UInt32.le_iff_toNat_le] using h
  simp only [isBlank, Bool.or_eq_false_iff, Bool.and_eq_false_imp, decide_eq_true_eq,
    decide_eq_false_iff_not, beq_eq_false_iff_ne]
  omega

/-! ## Trimming -/

/-- `trimChars` drops the white space at the front, and then that at the end. -/
private theorem trimChars_eq (cs : List Char) :
    trimChars cs = (cs.dropWhile isBlank).rdropWhile isBlank :=
  rfl

/-- `trimChars` takes nothing but the end off what begins behind the white space. -/
private theorem trimChars_prefix_dropWhile (cs : List Char) :
    trimChars cs <+: cs.dropWhile isBlank :=
  List.rdropWhile_prefix isBlank _

/-- `trimChars` adds no character. -/
theorem mem_of_mem_trimChars {c : Char} (h : c ∈ trimChars cs) : c ∈ cs :=
  (List.dropWhile_suffix isBlank).subset ((trimChars_prefix_dropWhile cs).subset h)

/-- `trimChars` leaves no white space at the ends (`Trimmed`). -/
theorem trimmed_trimChars (cs : List Char) : Trimmed (trimChars cs) where
  head hne := by
    -- The first character is still the first one when the end has been taken off.
    rw [(trimChars_prefix_dropWhile cs).head hne]
    exact List.head_dropWhile_not isBlank _
  last hne := Bool.eq_false_iff.mpr (List.rdropWhile_last_not isBlank _ hne)

/-- `trimChars` leaves a `Trimmed` text as it is. -/
theorem Trimmed.trimChars_eq (h : Trimmed cs) : trimChars cs = cs := by
  have hhead : cs.dropWhile isBlank = cs := by
    cases cs with
    | nil => rfl
    | cons c cs => exact List.dropWhile_cons_of_neg (Bool.eq_false_iff.mp (h.head nofun))
  rw [Text.trimChars_eq, hhead, List.rdropWhile_eq_self_iff]
  exact fun hne => Bool.eq_false_iff.mp (h.last hne)

/-- `trimChars` leaves nothing of white space. -/
theorem trimChars_of_allBlank (h : AllBlank cs) : trimChars cs = [] := by
  rw [trimChars_eq, List.dropWhile_eq_nil_iff.mpr h, List.rdropWhile_nil]

/-- All that is dropped is white space. -/
theorem exists_padding (cs : List Char) :
    ∃ before after, AllBlank before ∧ AllBlank after ∧ cs = before ++ trimChars cs ++ after := by
  refine ⟨cs.takeWhile isBlank, (cs.dropWhile isBlank).rtakeWhile isBlank,
    List.all_eq_true.mp List.all_takeWhile, fun c => List.mem_rtakeWhile_imp, ?_⟩
  rw [trimChars_eq, List.append_assoc, List.rdropWhile_append_rtakeWhile,
    List.takeWhile_append_dropWhile]

/-- `trimChars` leaves nothing exactly of white space. -/
theorem trimChars_eq_nil_iff : trimChars cs = [] ↔ AllBlank cs := by
  refine ⟨fun hnil => ?_, trimChars_of_allBlank⟩
  obtain ⟨before, after, hbefore, hafter, heq⟩ := exists_padding cs
  rw [heq, hnil, List.append_nil]
  exact List.forall_mem_append.mpr ⟨hbefore, hafter⟩

/-- White space around a text is dropped. -/
theorem trimChars_padded (hbefore : AllBlank before) (hafter : AllBlank after) :
    trimChars (before ++ cs ++ after) = trimChars cs := by
  rw [List.append_assoc, trimChars_eq, List.dropWhile_append_of_pos hbefore, List.dropWhile_append]
  split
  · next hblank =>
    rw [List.isEmpty_iff] at hblank
    rw [List.dropWhile_eq_nil_iff.mpr hafter, trimChars_eq, hblank]
  · have hreverse : ∀ c ∈ after.reverse, isBlank c = true := fun c hc =>
      hafter c (List.mem_reverse.mp hc)
    rw [List.rdropWhile, List.reverse_append, List.dropWhile_append_of_pos hreverse]
    rfl

/-! ## Words -/

/-- No piece has a character at which the text is cut, and all of it is from the text. -/
theorem of_mem_cut {sep : Char → Bool} {piece : List Char} (h : piece ∈ cut sep cs) :
    ∀ c ∈ piece, sep c = false ∧ c ∈ cs := by
  induction cs generalizing piece with
  | nil => simp_all [cut]
  | cons d cs ih =>
    have hmore {piece : List Char} (hpiece : piece ∈ cut sep cs) :
        ∀ c ∈ piece, sep c = false ∧ c ∈ d :: cs := fun c hc =>
      ⟨(ih hpiece c hc).1, List.mem_cons_of_mem _ (ih hpiece c hc).2⟩
    rw [cut] at h
    split at h
    · rcases List.mem_cons.mp h with rfl | hrest
      · simp
      · exact hmore hrest
    · next hsep =>
      obtain ⟨first, rest, hcut⟩ := List.exists_cons_of_ne_nil (cut_ne_nil sep cs)
      rw [hcut] at h hmore
      rcases List.mem_cons.mp h with rfl | hrest
      · -- The first piece goes on with one more character.
        refine List.forall_mem_cons.mpr ⟨⟨Bool.eq_false_iff.mpr hsep, List.mem_cons_self⟩, ?_⟩
        exact hmore List.mem_cons_self
      · exact hmore (List.mem_cons_of_mem _ hrest)

/-- White space keeps the words before it and those behind it apart. -/
theorem words_append_cons {c : Char} (hc : isBlank c = true) (cs ds : List Char) :
    words (cs ++ c :: ds) = words cs ++ words ds := by
  rw [words, cut_append_cons hc, List.filter_append]
  rfl

/-- A text without white space is one word, if it is not empty. -/
theorem words_of_solid (h : Solid cs) (hne : cs ≠ []) : words cs = [cs] := by
  rw [words, cut_of_forall h]
  simp [hne]

/-- White space in front makes no difference to the words. -/
private theorem words_allBlank_append (h : AllBlank before) (cs : List Char) :
    words (before ++ cs) = words cs := by
  induction before with
  | nil => rfl
  | cons c before ih =>
    obtain ⟨hc, hbefore⟩ := List.forall_mem_cons.mp h
    rw [List.cons_append, ← List.nil_append (c :: _), words_append_cons hc, ih hbefore]
    rfl

/-- White space around a text is in no word. -/
theorem words_padded (hbefore : AllBlank before) (hafter : AllBlank after) :
    words (before ++ cs ++ after) = words cs := by
  rw [List.append_assoc, words_allBlank_append hbefore]
  cases after with
  | nil => rw [List.append_nil]
  | cons c after =>
    obtain ⟨hc, hrest⟩ := List.forall_mem_cons.mp hafter
    have hnone : words after = words [] := by
      rw [← List.append_nil after, words_allBlank_append hrest]
    rw [words_append_cons hc, hnone]
    exact List.append_nil _

/-- A carriage return at the end is in no word. -/
theorem words_dropReturn (cs : List Char) : words (dropReturn cs) = words cs := by
  -- Only a carriage return at the very end is dropped, and it is blank.
  have hcases : ∀ cs : List Char, dropReturn cs = cs ∨ dropReturn cs ++ ['\r'] = cs := by
    intro cs
    fun_induction dropReturn cs with
    | case1 => exact .inl rfl
    | case2 => exact .inr rfl
    | case3 => exact .inl rfl
    | case4 c d cs ih => simpa using ih
  rcases hcases cs with h | h
  · rw [h]
  · have hreturn : AllBlank ['\r'] := by
      rintro c ⟨⟩
      · rfl
      · contradiction
    have hpadded : words ([] ++ dropReturn cs ++ ['\r']) = words (dropReturn cs) :=
      words_padded nofun hreturn
    rwa [List.nil_append, h, eq_comm] at hpadded

end EgressControl.Text
