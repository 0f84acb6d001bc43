import EgressControl.Proofs.Text.ByteOrder
import EgressControl.Text.Utf8
import Mathlib.Data.List.Basic

/-!
# The bytes of one character

A character from `0x80` on takes two to four bytes: a lead, a second byte whose bounds the lead
fixes, and trailing bytes.  `Lead.Takes` is what may follow a lead.  The characters are the leads
with all that they take (`encode_eq_cons_iff`), and bytes that break off in the middle of a
character are the leads with a part of it (`breaksOff_cons_iff`).  That the bounds of the second
byte shut out overlong forms, surrogates and numbers out of range, and nothing else, is
`exists_lead_iff`.

`sequence` goes as far as the lead takes bytes (`sequence_takes`).  So it reads a character exactly
where one stands (`sequence_encode`, `encode_of_sequence`), and anywhere else it skips the longest
part that breaks off (`longest_of_sequence`).
-/

namespace EgressControl.Text.Utf8

/-! ## Longest parts in front -/

/-- The longest part with a property that some bytes begin with. -/
structure LongestStart (p : List UInt8 → Prop) (part bs : List UInt8) : Prop where
  holds : p part
  starts : part <+: bs
  longest : ∀ other, other <+: bs → p other → other.length ≤ part.length

namespace LongestStart

variable {p q : List UInt8 → Prop} {part part' bs : List UInt8}

/-- There is one longest start only. -/
theorem unique (h : LongestStart p part bs) (h' : LongestStart p part' bs) : part = part' := by
  have hlength : part.length = part'.length :=
    Nat.le_antisymm (h'.longest _ h.starts h.holds) (h.longest _ h'.starts h'.holds)
  have hstarts := List.prefix_of_prefix_length_le h.starts h'.starts (Nat.le_of_eq hlength)
  exact hstarts.eq_of_length hlength

/-- Bytes that have the property are their own longest start. -/
theorem self (h : p bs) : LongestStart p bs bs where
  holds := h
  starts := List.prefix_refl bs
  longest _ hstarts _ := hstarts.length_le

/-- Nothing is the longest part if no byte can be the first one of a longer part. -/
theorem nil (hnil : p []) (hcons : ∀ b other, b :: other <+: bs → ¬p (b :: other)) :
    LongestStart p [] bs where
  holds := hnil
  starts := List.nil_prefix
  longest other hstarts hother := by
    cases other with
    | nil => exact Nat.le_refl _
    | cons b other => exact absurd hother (hcons b other hstarts)

/-- A longest start goes on in front, if the property of the longer one follows from that of the
shorter one and the other way round. -/
private theorem cons {b : UInt8} (h : LongestStart p part bs) (hpart : q (b :: part))
    (hq : ∀ other, q (b :: other) → p other) : LongestStart q (b :: part) (b :: bs) where
  holds := hpart
  starts := List.cons_prefix_cons.mpr ⟨rfl, h.starts⟩
  longest other hstarts hother := by
    cases other with
    | nil => exact Nat.zero_le _
    | cons c other =>
      obtain ⟨rfl, hrest⟩ := List.cons_prefix_cons.mp hstarts
      exact Nat.succ_le_succ (h.longest other hrest (hq other hother))

end LongestStart

/-! ## Leads and what they take -/

/-- A byte that can stand behind the second one. -/
def Trails (b : UInt8) : Prop := 0x80 ≤ b ∧ b ≤ 0xbf

/-- Bytes that trail are those from `0x80` to `0xbf`. -/
private theorem trails_iff {b : UInt8} : Trails b ↔ 0x80 ≤ b.toNat ∧ b.toNat ≤ 0xbf := by
  simp only [Trails, UInt8.le_iff_toNat_le, UInt8.reduceToNat]

/-- The bytes that may follow a lead, all of them or only the first ones. -/
def Lead.Takes (l : Lead) : List UInt8 → Prop
  | [] => True
  | c :: cs => (l.low ≤ c ∧ c ≤ l.high) ∧ cs.length ≤ l.more ∧ ∀ d ∈ cs, Trails d

/-- Goes on with a number by the digits to base 64 that some bytes carry. -/
def number (bits : Nat) (bs : List UInt8) : Nat :=
  bs.foldl (fun n b => n * 64 + (b.toNat - 0x80)) bits

/-- A lead takes no more bytes than one and those that `more` says. -/
private theorem Lead.Takes.length_le {l : Lead} {bs : List UInt8} (h : l.Takes bs) :
    bs.length ≤ l.more + 1 := by
  cases bs with
  | nil => exact Nat.zero_le _
  | cons c cs => exact Nat.succ_le_succ h.2.1

/-- A lead that takes some bytes takes each start of them. -/
private theorem Lead.Takes.of_append {l : Lead} {bs rest : List UInt8} (h : l.Takes (bs ++ rest)) :
    l.Takes bs := by
  cases bs with
  | nil => trivial
  | cons c cs =>
    obtain ⟨hsecond, hlength, htrails⟩ := h
    have hle : cs.length ≤ (cs ++ rest).length := List.length_append ▸ Nat.le_add_right ..
    exact ⟨hsecond, Nat.le_trans hle hlength, fun d hd => htrails d (List.mem_append_left _ hd)⟩

/-- Every lead has a byte that it takes next. -/
private theorem low_le_high {b : UInt8} {l : Lead} (h : lead? b = some l) : l.low ≤ l.high := by
  rw [lead?] at h
  split_ifs at h <;> cases h <;> dsimp only <;> decide

/-- What a lead has taken can be completed. -/
private theorem Lead.Takes.exists_completion {b : UInt8} {l : Lead} (hl : lead? b = some l)
    {bs : List UInt8} (h : l.Takes bs) :
    ∃ rest, l.Takes (bs ++ rest) ∧ (bs ++ rest).length = l.more + 1 := by
  have htrails : Trails 0x80 := trails_iff.mpr (by decide)
  -- The second byte has bounds of its own, so the empty rest is filled from `l.low`, and
  -- any other with the least trailing byte.
  cases bs with
  | nil =>
    have hsecond : l.low ≤ l.low ∧ l.low ≤ l.high := ⟨UInt8.le_refl _, low_le_high hl⟩
    refine ⟨l.low :: List.replicate l.more 0x80, ⟨hsecond, ?_, ?_⟩, ?_⟩
    · exact Nat.le_of_eq List.length_replicate
    · intro d hd
      exact List.eq_of_mem_replicate hd ▸ htrails
    · rw [List.nil_append, List.length_cons, List.length_replicate]
  | cons c cs =>
    obtain ⟨hsecond, hlength, hcs⟩ := h
    have hfull : (cs ++ List.replicate (l.more - cs.length) 0x80).length = l.more := by
      rw [List.length_append, List.length_replicate, Nat.add_sub_cancel' hlength]
    refine ⟨List.replicate (l.more - cs.length) 0x80, ⟨hsecond, Nat.le_of_eq hfull, ?_⟩, ?_⟩
    · intro d hd
      rcases List.mem_append.mp hd with hd | hd
      · exact hcs d hd
      · exact List.eq_of_mem_replicate hd ▸ htrails
    · exact congrArg (· + 1) hfull

/-- The first two bytes of a sequence.  A mark stands before the bits of the lead.  If the lead
has no bits, the second byte has enough to make the sequence no longer than needed; after `0xd` it
leaves out the surrogates, and after `4` what is above `0x10ffff`. -/
theorem exists_lead_iff (b c : UInt8) (bits more : Nat) :
    (∃ low high, lead? b = some ⟨low, high, bits, more⟩ ∧ low ≤ c ∧ c ≤ high) ↔
      (0x80 ≤ c.toNat ∧ c.toNat ≤ 0xbf) ∧
        (more = 0 ∧ b.toNat = 0xc0 + bits ∧ 2 ≤ bits ∧ bits < 0x20 ∨
        more = 1 ∧ b.toNat = 0xe0 + bits ∧ bits < 0x10 ∧
          (bits = 0 → 0xa0 ≤ c.toNat) ∧ (bits = 0xd → c.toNat < 0xa0) ∨
        more = 2 ∧ b.toNat = 0xf0 + bits ∧ bits ≤ 4 ∧
          (bits = 0 → 0x90 ≤ c.toNat) ∧ (bits = 4 → c.toNat < 0x90)) := by
  simp only [lead?, UInt8.lt_iff_toNat_lt, UInt8.le_iff_toNat_le, ← UInt8.toNat_inj,
    UInt8.reduceToNat]
  have hb := b.toNat_lt
  split_ifs
  all_goals
    simp
    omega

/-! ## Characters -/

/-- Six bits and the mark of a trailing byte add up without overflow. -/
private theorem toNat_digit (m : Nat) : (UInt8.ofNat (m % 64 + 0x80)).toNat = 0x80 + m % 64 := by
  rw [UInt8.toNat_ofNat']
  omega

/-- Six bits with the mark of a trailing byte make a byte that trails. -/
private theorem trails_digit (m : Nat) : Trails (.ofNat (m % 64 + 0x80)) := by
  rw [trails_iff, toNat_digit]
  omega

/-- A lead with all that it takes carries the number of a character, and consists of its bytes. -/
private theorem bytesOf_number {b : UInt8} {l : Lead} {bs : List UInt8} (hl : lead? b = some l)
    (htakes : l.Takes bs) (hlength : bs.length = l.more + 1) :
    (number l.bits bs).isValidChar ∧ bytesOf (number l.bits bs) = b :: bs := by
  obtain ⟨c, cs, rfl⟩ := List.exists_cons_of_length_eq_add_one hlength
  rw [List.length_cons, Nat.succ_inj] at hlength
  obtain ⟨hsecond, -, htrails⟩ := htakes
  rw [bytesOf, Nat.isValidChar]
  generalize hn : number l.bits (c :: cs) = n
  -- One case for each length: the number is of the size that takes so many bytes.
  obtain ⟨hc, ⟨hmore, hb⟩ | ⟨hmore, hb⟩ | ⟨hmore, hb⟩⟩ :=
    (exists_lead_iff b c l.bits l.more).mp ⟨_, _, hl, hsecond⟩
  · obtain rfl := List.length_eq_zero_iff.mp (hlength.trans hmore)
    simp only [number, List.foldl_cons, List.foldl_nil] at hn
    refine ⟨by omega, ?_⟩
    rw [if_neg (by omega), if_pos (by omega)]
    simp only [List.cons.injEq, and_true, ← UInt8.toNat_inj, UInt8.toNat_ofNat']
    omega
  · obtain ⟨d, rfl⟩ := List.length_eq_one_iff.mp (hlength.trans hmore)
    rw [List.forall_mem_singleton, trails_iff] at htrails
    simp only [number, List.foldl_cons, List.foldl_nil] at hn
    refine ⟨by omega, ?_⟩
    rw [if_neg (by omega), if_neg (by omega), if_pos (by omega)]
    simp only [List.cons.injEq, and_true, ← UInt8.toNat_inj, UInt8.toNat_ofNat']
    omega
  · obtain ⟨d, e, rfl⟩ := List.length_eq_two.mp (hlength.trans hmore)
    simp only [List.forall_mem_cons, trails_iff] at htrails
    simp only [number, List.foldl_cons, List.foldl_nil] at hn
    refine ⟨by omega, ?_⟩
    rw [if_neg (by omega), if_neg (by omega), if_neg (by omega)]
    simp only [List.cons.injEq, and_true, ← UInt8.toNat_inj, UInt8.toNat_ofNat']
    omega

/-- The encoding of a character beyond ASCII is a lead and all the bytes that it takes, which hold
the number of the character. -/
private theorem exists_lead_of_bytesOf {n : Nat} (hvalid : n.isValidChar) {b : UInt8}
    (hb : 0x80 ≤ b)
    {bs : List UInt8} (h : bytesOf n = b :: bs) :
    ∃ l, lead? b = some l ∧ l.Takes bs ∧ bs.length = l.more + 1 ∧ number l.bits bs = n := by
  rw [Nat.isValidChar] at hvalid
  rw [bytesOf] at h
  -- One case for each size: the first two bytes give the lead, and the others are digits.
  split_ifs at h with hone htwo hthree <;> cases h
  · simp only [UInt8.le_iff_toNat_le, UInt8.toNat_ofNat', UInt8.reduceToNat] at hb
    omega
  · obtain ⟨low, high, hl, hsecond⟩ := (exists_lead_iff (.ofNat (n / 64 % 0x20 + 0xc0))
      (.ofNat (n % 64 + 0x80)) (n / 64) 0).mpr (by rw [toNat_digit, UInt8.toNat_ofNat']; omega)
    refine ⟨_, hl, ⟨hsecond, Nat.le_refl _, by simp⟩, rfl, ?_⟩
    simp only [number, List.foldl_cons, List.foldl_nil, toNat_digit]
    omega
  · obtain ⟨low, high, hl, hsecond⟩ := (exists_lead_iff (.ofNat (n / 64 / 64 % 0x10 + 0xe0))
      (.ofNat (n / 64 % 64 + 0x80)) (n / 64 / 64) 1).mpr
      (by rw [toNat_digit, UInt8.toNat_ofNat']; omega)
    refine ⟨_, hl, ⟨hsecond, Nat.le_refl _, by simpa using trails_digit n⟩, rfl, ?_⟩
    simp only [number, List.foldl_cons, List.foldl_nil, toNat_digit]
    omega
  · obtain ⟨low, high, hl, hsecond⟩ := (exists_lead_iff (.ofNat (n / 64 / 64 / 64 % 8 + 0xf0))
      (.ofNat (n / 64 / 64 % 64 + 0x80)) (n / 64 / 64 / 64) 2).mpr
      (by rw [toNat_digit, UInt8.toNat_ofNat']; omega)
    refine ⟨_, hl, ⟨hsecond, Nat.le_refl _, ?_⟩, rfl, ?_⟩
    · exact List.forall_mem_cons.mpr ⟨trails_digit _, by simpa using trails_digit n⟩
    · simp only [number, List.foldl_cons, List.foldl_nil, toNat_digit]
      omega

variable {b : UInt8} {bs cs rest : List UInt8} {c : Char} {n : Nat}

/-- The bytes of a character from `0x80` on are a lead with all that it takes. -/
theorem encode_eq_cons_iff (hb : 0x80 ≤ b) :
    (∃ c : Char, c.toNat = n ∧ String.utf8EncodeChar c = b :: bs) ↔
      ∃ l, lead? b = some l ∧ l.Takes bs ∧ bs.length = l.more + 1 ∧ number l.bits bs = n := by
  constructor
  · rintro ⟨c, rfl, hc⟩
    rw [utf8EncodeChar_eq] at hc
    exact exists_lead_of_bytesOf c.valid hb hc
  · rintro ⟨l, hl, htakes, hlength, rfl⟩
    obtain ⟨hvalid, hbytes⟩ := bytesOf_number hl htakes hlength
    exact ⟨Char.ofNatAux _ hvalid, rfl, (utf8EncodeChar_eq _).trans hbytes⟩

/-- A byte below `0x80` is a character of its own. -/
theorem encode_eq_cons_iff_of_lt (hb : b < 0x80) :
    (∃ c : Char, c.toNat = n ∧ String.utf8EncodeChar c = b :: bs) ↔ bs = [] ∧ b.toNat = n := by
  simp only [UInt8.lt_iff_toNat_lt, UInt8.reduceToNat] at hb
  constructor
  · rintro ⟨c, rfl, hc⟩
    rw [utf8EncodeChar_eq, bytesOf] at hc
    -- All but the encoding in one byte start at `0xc0` or above.
    split_ifs at hc with hone <;> cases hc
    · exact ⟨rfl, by rw [UInt8.toNat_ofNat']; omega⟩
    all_goals
      rw [UInt8.toNat_ofNat'] at hb
      omega
  · rintro ⟨rfl, rfl⟩
    have hvalid : b.toNat.isValidChar := by
      rw [Nat.isValidChar]
      omega
    refine ⟨Char.ofNatAux b.toNat hvalid, rfl, ?_⟩
    have hnumber : (Char.ofNatAux b.toNat hvalid).toNat = b.toNat := rfl
    rw [utf8EncodeChar_eq, hnumber, bytesOf, if_pos (Nat.le_of_lt_succ hb), UInt8.ofNat_toNat]

/-- Some bytes of a character from the first one on, but not all of them. -/
def BreaksOff (bs : List UInt8) : Prop :=
  ∃ c, bs <+: String.utf8EncodeChar c ∧ bs ≠ String.utf8EncodeChar c

/-- Bytes behind a lead break off if the lead takes them, and wants more. -/
theorem breaksOff_cons_iff (hb : 0x80 ≤ b) :
    BreaksOff (b :: bs) ↔ ∃ l, lead? b = some l ∧ l.Takes bs ∧ bs.length ≤ l.more := by
  constructor
  · rintro ⟨c, ⟨rest, hrest⟩, hne⟩
    rw [List.cons_append] at hrest
    obtain ⟨l, hl, htakes, hlength, -⟩ := (encode_eq_cons_iff hb).mp ⟨c, rfl, hrest.symm⟩
    -- A proper beginning leaves something of the encoding over, so it takes fewer bytes.
    have hpos : 0 < rest.length := by
      rw [List.length_pos_iff]
      rintro rfl
      exact hne (by rw [← hrest, List.append_nil])
    rw [List.length_append] at hlength
    exact ⟨l, hl, htakes.of_append, by omega⟩
  · rintro ⟨l, hl, htakes, hlength⟩
    -- Conversely any completion encodes a character, and is longer than its beginning.
    obtain ⟨rest, hrest, hfull⟩ := htakes.exists_completion hl
    obtain ⟨c, -, hc⟩ := (encode_eq_cons_iff hb).mpr ⟨l, hl, hrest, hfull, rfl⟩
    refine ⟨c, ⟨rest, hc.symm⟩, fun heq => ?_⟩
    have hsame : (b :: bs).length = (b :: (bs ++ rest)).length := by rw [heq, hc]
    rw [List.length_cons, List.length_cons, hfull] at hsame
    omega

/-! ## Reading -/

/-- `trailing` takes the longest part that can trail. -/
private theorem trailing_takes (bits n : Nat) (bs : List UInt8) :
    ∃ part, LongestStart (fun cs => cs.length ≤ n ∧ ∀ c ∈ cs, Trails c) part bs ∧
      trailing bits n bs =
        (if part.length = n then some (number bits part) else none, bs.drop part.length) := by
  induction n generalizing bits bs with
  | zero =>
    refine ⟨[], .nil (by simp) fun b other _ h => ?_, rfl⟩
    exact absurd h.1 (Nat.not_succ_le_zero _)
  | succ n ih =>
    cases bs with
    | nil => exact ⟨[], .nil (by simp) (by simp), rfl⟩
    | cons b bs =>
      rw [trailing]
      -- A trailing byte joins the part that the rest takes; any other byte ends it here.
      by_cases hb : 0x80 ≤ b ∧ b ≤ 0xbf
      · obtain ⟨part, hlongest, hresult⟩ := ih (bits * 64 + (b.toNat - 0x80)) bs
        obtain ⟨hlength, htrails⟩ := hlongest.holds
        refine ⟨b :: part, hlongest.cons ?_ ?_, ?_⟩
        · exact ⟨Nat.succ_le_succ hlength, List.forall_mem_cons.mpr ⟨hb, htrails⟩⟩
        · rintro other ⟨hlength, htrails⟩
          exact ⟨Nat.le_of_succ_le_succ hlength, (List.forall_mem_cons.mp htrails).2⟩
        · rw [if_pos hb, hresult]
          simp [number]
      · refine ⟨[], .nil (by simp) fun c other hstarts hother => ?_, ?_⟩
        · obtain ⟨rfl, -⟩ := List.cons_prefix_cons.mp hstarts
          exact hb (List.forall_mem_cons.mp hother.2).1
        · rw [if_neg hb]
          rfl

/-- `sequence` takes the longest part that the lead takes. -/
theorem sequence_takes {l : Lead} (hl : lead? b = some l) (bs : List UInt8) :
    ∃ part, LongestStart l.Takes part bs ∧
      sequence b bs =
        (if part.length = l.more + 1 then some (number l.bits part) else none,
          bs.drop part.length) := by
  rw [sequence, hl]
  cases bs with
  | nil => exact ⟨[], .nil trivial (by simp), rfl⟩
  | cons c cs =>
    -- Only the second byte is bounded by the lead, the others by `Trails`.
    by_cases hc : l.low ≤ c ∧ c ≤ l.high
    · obtain ⟨part, hlongest, hresult⟩ :=
        trailing_takes (l.bits * 64 + (c.toNat - 0x80)) l.more cs
      refine ⟨c :: part, hlongest.cons ⟨hc, hlongest.holds⟩ fun other h => h.2, ?_⟩
      simp only [if_pos hc, hresult]
      simp [number]
    · refine ⟨[], .nil trivial fun d other hstarts hother => ?_, by simp [hc]⟩
      obtain ⟨rfl, -⟩ := List.cons_prefix_cons.mp hstarts
      exact hc hother.1

/-- A character is read, whatever stands behind it. -/
theorem sequence_encode (hb : 0x80 ≤ b) (hc : String.utf8EncodeChar c = b :: cs)
    (rest : List UInt8) : sequence b (cs ++ rest) = (some c.toNat, rest) := by
  obtain ⟨l, hl, htakes, hlength, hnumber⟩ := (encode_eq_cons_iff hb).mp ⟨c, rfl, hc⟩
  obtain ⟨part, hlongest, hresult⟩ := sequence_takes hl (cs ++ rest)
  -- The lead takes the rest of the character, and cannot take more than that.
  have hcs : LongestStart l.Takes cs (cs ++ rest) :=
    ⟨htakes, List.prefix_append .., fun other _ hother => hlength ▸ hother.length_le⟩
  rw [hresult, hlongest.unique hcs, if_pos hlength, hnumber, List.drop_left]

/-- What is read as a character is one. -/
theorem encode_of_sequence (hb : 0x80 ≤ b) (h : sequence b bs = (some n, rest)) :
    ∃ c : Char, c.toNat = n ∧ String.utf8EncodeChar c ++ rest = b :: bs := by
  cases hl : lead? b with
  | none => simp [sequence, hl] at h
  | some l =>
    obtain ⟨part, hlongest, hresult⟩ := sequence_takes hl bs
    rw [h, Prod.mk.injEq] at hresult
    obtain ⟨hsome, hrest⟩ := hresult
    -- A number is given only where the run of trailing bytes is complete.
    split_ifs at hsome with hlength
    obtain ⟨c, hc, hbytes⟩ := (encode_eq_cons_iff hb).mpr
      ⟨l, hl, hlongest.holds, hlength, (Option.some.inj hsome).symm⟩
    refine ⟨c, hc, ?_⟩
    rw [hbytes, hrest, List.cons_append, List.prefix_iff_eq_append.mp hlongest.starts]

/-- Bytes for which one replacement character can stand: a single one, or some that break off. -/
def Faulty (bs : List UInt8) : Prop := bs.length = 1 ∨ bs ≠ [] ∧ BreaksOff bs

/-- No bytes are no fault. -/
theorem Faulty.ne_nil (h : Faulty bs) : bs ≠ [] := by
  rcases h with hlength | ⟨hne, -⟩
  · exact List.ne_nil_of_length_eq_add_one hlength
  · exact hne

/-- A fault is one byte, or a lead and bytes that it takes. -/
private theorem Faulty.lead_takes (hb : 0x80 ≤ b) (h : Faulty (b :: bs)) :
    bs = [] ∨ ∃ l, lead? b = some l ∧ l.Takes bs := by
  rcases h with hlength | ⟨-, hbreaks⟩
  · exact .inl (List.length_eq_zero_iff.mp (Nat.succ_inj.mp hlength))
  · obtain ⟨l, hl, htakes, -⟩ := (breaksOff_cons_iff hb).mp hbreaks
    exact .inr ⟨l, hl, htakes⟩

/-- What is read as no character is the longest part for which a replacement can stand. -/
theorem longest_of_sequence (hb : 0x80 ≤ b) (h : sequence b bs = (none, rest)) :
    ∃ bad, LongestStart Faulty bad (b :: bs) ∧ bad ++ rest = b :: bs := by
  cases hl : lead? b with
  | none =>
    simp only [sequence, hl, Prod.mk.injEq, true_and] at h
    subst h
    -- A byte that leads nothing is faulty by itself.
    have hnothing : LongestStart (· = []) [] bs := .nil rfl (by simp)
    refine ⟨[b], hnothing.cons (.inl rfl) fun other hother => ?_, rfl⟩
    simpa [hl] using hother.lead_takes hb
  | some l =>
    obtain ⟨part, hlongest, hresult⟩ := sequence_takes hl bs
    rw [h, Prod.mk.injEq] at hresult
    obtain ⟨hnone, hrest⟩ := hresult
    split_ifs at hnone with hlength
    -- The run of trailing bytes ended early, so what was taken could still have been
    -- completed.
    have hle := hlongest.holds.length_le
    have hbreaks : BreaksOff (b :: part) :=
      (breaksOff_cons_iff hb).mpr ⟨l, hl, hlongest.holds, by omega⟩
    refine ⟨b :: part, hlongest.cons (.inr ⟨List.cons_ne_nil _ _, hbreaks⟩) ?_, ?_⟩
    -- No longer faulty start: what may follow `b` is fixed by its lead.
    · intro other hother
      rcases hother.lead_takes hb with rfl | ⟨l', hl', htakes⟩
      · trivial
      · rw [hl, Option.some.injEq] at hl'
        exact hl' ▸ htakes
    · rw [hrest, List.cons_append, List.prefix_iff_eq_append.mp hlongest.starts]

end EgressControl.Text.Utf8
