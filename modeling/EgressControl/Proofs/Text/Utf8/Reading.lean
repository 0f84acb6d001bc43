import EgressControl.Proofs.Text.Utf8.Sequence

/-!
# What bytes are read as

Bytes that are UTF-8 are read as the characters that they are (`decodeLossy_encode`).  Of other
bytes the longest part that is UTF-8 is copied; for the longest part behind it that breaks off a
character, or for one byte, there is one replacement character; and then the same again.
`ReadsAs` says this without a word on how it is done.  It determines the text (`ReadsAs.unique`),
and `decodeLossy` gives that text (`readsAs_iff`).
-/

namespace EgressControl.Text.Utf8

variable {bs rest : List UInt8} {cs text : List Char} {c d : Char}

/-- The bytes of characters. -/
def encode (cs : List Char) : List UInt8 := cs.flatMap String.utf8EncodeChar

/-- `encode` goes character by character. -/
@[simp] theorem encode_cons (c : Char) (cs : List Char) :
    encode (c :: cs) = String.utf8EncodeChar c ++ encode cs := List.flatMap_cons

/-- Bytes that are UTF-8. -/
def Valid (bs : List UInt8) : Prop := bs.toByteArray.IsValidUTF8

/-- Bytes are `Valid` if they are the encoding of some characters. -/
private theorem valid_iff : Valid bs ↔ ∃ cs, encode cs = bs := by
  constructor
  · rintro ⟨cs, hcs⟩
    exact ⟨cs, (List.toByteArray_inj.mp hcs).symm⟩
  · rintro ⟨cs, rfl⟩
    exact ⟨cs, rfl⟩

/-! ## Bytes of characters -/

/-- `decodeLossy` takes off the encoding of one character as this character. -/
private theorem decodeLossy_encode_append (c : Char) (rest : List UInt8) :
    decodeLossy (String.utf8EncodeChar c ++ rest) = c :: decodeLossy rest := by
  obtain ⟨b, bs, hc⟩ := List.exists_cons_of_ne_nil (String.utf8EncodeChar_ne_nil (c := c))
  rw [hc, List.cons_append, decodeLossy]
  by_cases hb : b < 0x80
  · obtain ⟨rfl, hnumber⟩ := (encode_eq_cons_iff_of_lt hb).mp ⟨c, rfl, hc⟩
    rw [if_pos hb, hnumber, Char.ofNat_toNat, List.nil_append]
  · have hread := sequence_encode (UInt8.not_lt.mp hb) hc rest
    simp only [if_neg hb, hread, Option.elim_some, Char.ofNat_toNat]

/-- The bytes of characters are read as these characters. -/
theorem decodeLossy_encode (cs : List Char) : decodeLossy (encode cs) = cs := by
  induction cs with
  | nil => rw [encode, List.flatMap_nil, decodeLossy]
  | cons c cs ih => rw [encode_cons, decodeLossy_encode_append, ih]

/-- Characters with the same encoding are the same. -/
private theorem encode_inj {ds : List Char} (h : encode cs = encode ds) : cs = ds := by
  rw [← decodeLossy_encode cs, h, decodeLossy_encode]

/-- `decodeLossy` can be undone exactly on `Valid` bytes. -/
theorem encode_decodeLossy_eq_self_iff : encode (decodeLossy bs) = bs ↔ Valid bs := by
  rw [valid_iff]
  constructor
  · intro h
    exact ⟨_, h⟩
  · rintro ⟨cs, rfl⟩
    rw [decodeLossy_encode]

/-- Where one character stands, no other one does. -/
private theorem utf8EncodeChar_append_inj {rest' : List UInt8}
    (h : String.utf8EncodeChar c ++ rest = String.utf8EncodeChar d ++ rest') :
    c = d ∧ rest = rest' := by
  have hread := congrArg decodeLossy h
  rw [decodeLossy_encode_append, decodeLossy_encode_append, List.cons.injEq] at hread
  obtain ⟨rfl, -⟩ := hread
  exact ⟨rfl, List.append_cancel_left h⟩

/-! ## Any bytes -/

/-- The text to read bytes as.  Either they are UTF-8 as a whole, or the longest part in front
that is UTF-8 is copied, the longest faulty part behind it is replaced, and the rest is read. -/
inductive ReadsAs : List UInt8 → List Char → Prop where
  | whole {bs : List UInt8} {cs : List Char} : encode cs = bs → ReadsAs bs cs
  | fault {bs bad rest : List UInt8} {cs text : List Char} :
      LongestStart Valid (encode cs) bs → encode cs ++ (bad ++ rest) = bs →
      LongestStart Faulty bad (bad ++ rest) → ReadsAs rest text →
      ReadsAs bs (cs ++ replacement :: text)

/-- The longest valid part grows by a character in front. -/
private theorem LongestStart.encode_cons (h : LongestStart Valid (encode cs) bs) (c : Char) :
    LongestStart Valid (encode (c :: cs)) (String.utf8EncodeChar c ++ bs) where
  holds := valid_iff.mpr ⟨c :: cs, rfl⟩
  starts := (List.prefix_append_right_inj _).mpr h.starts
  longest other hstarts hother := by
    obtain ⟨ds, rfl⟩ := valid_iff.mp hother
    -- Another valid start begins with the same character, or is empty.
    cases ds with
    | nil => exact Nat.zero_le _
    | cons d ds =>
      obtain ⟨more, hmore⟩ := hstarts
      rw [Utf8.encode_cons, List.append_assoc] at hmore
      obtain ⟨rfl, hrest⟩ := utf8EncodeChar_append_inj hmore
      have hle := h.longest (encode ds) ⟨more, hrest⟩ (valid_iff.mpr ⟨ds, rfl⟩)
      simpa using hle

/-- The encoding of a character in front is read as this character. -/
private theorem ReadsAs.encode_append (h : ReadsAs bs text) (c : Char) :
    ReadsAs (String.utf8EncodeChar c ++ bs) (c :: text) := by
  cases h with
  | whole hcs => exact .whole (by rw [encode_cons, hcs])
  | fault hvalid hbs hbad hrest =>
    refine .fault (hvalid.encode_cons c) ?_ hbad hrest
    rw [encode_cons, List.append_assoc, hbs]

/-- Nothing in front is valid where no character can be read. -/
private theorem LongestStart.valid_nil {b : UInt8} (hb : 0x80 ≤ b)
    (h : sequence b bs = (none, rest)) :
    LongestStart Valid (encode []) (b :: bs) := by
  refine .nil (valid_iff.mpr ⟨[], rfl⟩) fun d other hstarts hother => ?_
  obtain ⟨rfl, more, rfl⟩ := List.cons_prefix_cons.mp hstarts
  obtain ⟨_ | ⟨c, cs⟩, hcs⟩ := valid_iff.mp hother
  · exact List.cons_ne_nil _ _ hcs.symm
  -- A first character would be encoded at the front, and `sequence` would have read it.
  · obtain ⟨e, es, hc⟩ := List.exists_cons_of_ne_nil (String.utf8EncodeChar_ne_nil (c := c))
    rw [Utf8.encode_cons, hc, List.cons_append, List.cons.injEq] at hcs
    obtain ⟨rfl, rfl⟩ := hcs
    rw [List.append_assoc, sequence_encode hb hc] at h
    cases h

/-- `decodeLossy` reads bytes as `ReadsAs` says. -/
theorem readsAs_decodeLossy (bs : List UInt8) : ReadsAs bs (decodeLossy bs) := by
  fun_induction decodeLossy bs with
  | case1 => exact .whole rfl
  -- One byte, then a sequence of several, which is a character or a fault.
  | case2 b bs hb ih =>
    obtain ⟨c, hnumber, hbytes⟩ := (encode_eq_cons_iff_of_lt hb).mpr ⟨rfl, rfl⟩
    have hread := ih.encode_append c
    rwa [hbytes, ← Char.ofNat_toNat c, hnumber] at hread
  | case3 b bs hb hle ih =>
    rw [UInt8.not_lt] at hb
    rcases hs : sequence b bs with ⟨_ | n, rest⟩
    · rw [hs] at ih
      obtain ⟨bad, hbad, hbs⟩ := longest_of_sequence hb hs
      rw [← hbs] at hbad
      exact .fault (.valid_nil hb hs) hbs hbad ih
    · rw [hs] at ih
      obtain ⟨c, rfl, hbs⟩ := encode_of_sequence hb hs
      rw [← hbs, Option.elim_some, Char.ofNat_toNat]
      exact ih.encode_append c

/-- Bytes with a fault behind the longest valid part are not valid. -/
private theorem not_valid_of_fault {bad : List UInt8} (hvalid : LongestStart Valid (encode cs) bs)
    (hbs : encode cs ++ (bad ++ rest) = bs) (hbad : LongestStart Faulty bad (bad ++ rest)) :
    ¬Valid bs := by
  intro h
  rw [hvalid.unique (.self h), List.append_right_eq_self, List.append_eq_nil_iff] at hbs
  exact hbad.holds.ne_nil hbs.1

namespace ReadsAs

/-- Bytes are read as one text only. -/
theorem unique {text' : List Char} (h : ReadsAs bs text) (h' : ReadsAs bs text') :
    text = text' := by
  induction h generalizing text' with
  | whole hcs =>
    cases h' with
    | whole hcs' => exact encode_inj (hcs.trans hcs'.symm)
    | fault hvalid hbs hbad _ =>
      exact absurd (valid_iff.mpr ⟨_, hcs⟩) (not_valid_of_fault hvalid hbs hbad)
  | fault hvalid hbs hbad _ ih =>
    cases h' with
    | whole hcs => exact absurd (valid_iff.mpr ⟨_, hcs⟩) (not_valid_of_fault hvalid hbs hbad)
    | fault hvalid' hbs' hbad' hrest' =>
      -- The same part is copied, then the same part is replaced, and the same rest remains.
      obtain rfl := encode_inj (hvalid.unique hvalid')
      have htail := List.append_cancel_left (hbs.trans hbs'.symm)
      rw [htail] at hbad
      obtain rfl := hbad.unique hbad'
      obtain rfl := List.append_cancel_left htail
      rw [ih hrest']

/-- Bytes that are not `Valid` are read with a `replacement`. -/
theorem replacement_mem (h : ReadsAs bs text) (hbs : ¬Valid bs) : replacement ∈ text := by
  cases h with
  | whole hcs => exact absurd (valid_iff.mpr ⟨_, hcs⟩) hbs
  | fault => exact List.mem_append_right _ List.mem_cons_self

/-- Every character that is no replacement stands in the bytes. -/
theorem infix_of_mem (h : ReadsAs bs text) (hc : c ∈ text) (hne : c ≠ replacement) :
    String.utf8EncodeChar c <:+: bs := by
  have hencode {cs : List Char} (hmem : c ∈ cs) : String.utf8EncodeChar c <:+: encode cs := by
    obtain ⟨front, back, rfl⟩ := List.append_of_mem hmem
    exact ⟨encode front, encode back, by simp [encode]⟩
  induction h with
  | whole hcs => exact hcs ▸ hencode hc
  | @fault bs bad rest cs text hvalid hbs hbad _ ih =>
    -- In the valid beginning that is copied, or behind the replacement for the fault.
    rcases List.mem_append.mp hc with hcopied | hbehind
    · exact (hencode hcopied).trans hvalid.starts.isInfix
    · have hrest : rest <:+ bs := by
        rw [← hbs, ← List.append_assoc]
        exact List.suffix_append ..
      exact (ih ((List.mem_cons.mp hbehind).resolve_left hne)).trans hrest.isInfix

end ReadsAs

/-- `decodeLossy` gives the one text to read the bytes as. -/
theorem readsAs_iff : ReadsAs bs text ↔ text = decodeLossy bs := by
  constructor
  · intro h
    exact h.unique (readsAs_decodeLossy bs)
  · rintro rfl
    exact readsAs_decodeLossy bs

end EgressControl.Text.Utf8
