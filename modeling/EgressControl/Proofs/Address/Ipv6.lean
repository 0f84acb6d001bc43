import EgressControl.Address.Ipv6
import EgressControl.Proofs.Address.DottedQuad

/-!
# The grammar of IPv6 literals

What an IPv6 literal is, is said as a grammar (`Spelling`): eight groups with colons between them,
or at most seven of them with one `::` for the others, where a dotted quad may stand for the last
two groups.  `isLiteral` reads from left to right and never goes back.  It recognises exactly the
texts of the grammar all the same (`isLiteral_iff`).

For this the reader of groups is shown to read groups and nothing else (`groups_of_readGroups`), and
to read all groups that stand before the end of the text or before `::` (`readGroups_append`).
-/

namespace EgressControl.Ipv6

/-- A group: one to four hexadecimal digits. -/
structure IsGroup (g : List Char) : Prop where
  ne_nil : g ≠ []
  length : g.length ≤ 4
  digits : ∀ c ∈ g, isHexDigit c = true

/-- So many groups with colons between them.  The truth value says whether the last two of them are
written as a dotted quad. -/
inductive Groups : Nat → Bool → List Char → Prop
  | none : Groups 0 false []
  | last {g : List Char} (hg : IsGroup g) : Groups 1 false g
  | quad (x : Ipv4) : Groups 2 true x.text.toList
  | cons {g cs : List Char} {n : Nat} {quad : Bool} (hg : IsGroup g)
    (hcs : Groups (n + 1) quad cs) : Groups (n + 2) quad (g ++ ':' :: cs)

/-- The text of an IPv6 address. -/
inductive Spelling : List Char → Prop
  | full {cs : List Char} {quad : Bool} (h : Groups 8 quad cs) : Spelling cs
  /-- The two colons stand for one group at least. -/
  | shortened {front back : List Char} {m n : Nat} {quad : Bool} (hfront : Groups m false front)
    (hback : Groups n quad back) (hroom : m + n ≤ 7) : Spelling (front ++ ':' :: ':' :: back)

/-! ## Groups -/

variable {cs rest : List Char} {limit n : Nat} {quad : Bool}

/-- A decimal digit is a hexadecimal one. -/
private theorem isHexDigit_of_isDigit {c : Char} (h : c.isDigit = true) : isHexDigit c = true := by
  simp [isHexDigit, h]

/-- Reading stops at the end, or at two colons. -/
def Stops (rest : List Char) : Prop := rest = [] ∨ ∃ tail, rest = ':' :: ':' :: tail

/-- What follows a group is the end or a colon. -/
def EndsGroup (rest : List Char) : Prop := ∀ c ∈ rest.head?, c = ':'

/-- Where no further group can be read, the last one has come to its end. -/
private theorem Stops.endsGroup (h : Stops rest) : EndsGroup rest := by
  rcases h with rfl | ⟨tail, rfl⟩
  · exact nofun
  · rintro c ⟨⟩
    rfl

/-- A group ends before a colon. -/
private theorem endsGroup_colon (cs : List Char) : EndsGroup (':' :: cs) := by
  rintro c ⟨⟩
  rfl

/-- The hexadecimal digits in front of `rest` are those of the group, if `rest` ends it
(`EndsGroup`). -/
private theorem takeWhile_group {g : List Char} (hg : IsGroup g) (hrest : EndsGroup rest) :
    (g ++ rest).takeWhile isHexDigit = g := by
  rw [List.takeWhile_append_of_pos hg.digits]
  cases rest with
  | nil => exact List.append_nil _
  | cons c rest =>
    obtain rfl := hrest c rfl
    exact List.append_nil _

/-- `readGroup` takes off the whole group, if what follows ends it (`EndsGroup`). -/
private theorem readGroup_append {g : List Char} (hg : IsGroup g) (hrest : EndsGroup rest) :
    readGroup (g ++ rest) = some rest := by
  have hlength := hg.length
  simp [readGroup, takeWhile_group hg hrest, hg.ne_nil, hlength]

/-- What `readGroup` takes off is a group of one to four hexadecimal digits. -/
private theorem group_of_readGroup (h : readGroup cs = some rest) :
    ∃ g, IsGroup g ∧ cs = g ++ rest := by
  unfold readGroup at h
  dsimp only at h
  split at h
  · simp at h
  · next hcount =>
    simp only [Bool.or_eq_true, not_or, List.isEmpty_iff, decide_eq_true_eq, not_lt] at hcount
    refine ⟨cs.takeWhile isHexDigit, ⟨hcount.1, hcount.2, fun c => List.mem_takeWhile_imp⟩, ?_⟩
    rw [← Option.some.inj h]
    exact (List.prefix_iff_eq_append.mp (List.takeWhile_prefix _)).symm

/-- A group behind which there is no dot is not the beginning of a dotted quad. -/
private theorem read_group {g : List Char} (hg : IsGroup g) (hrest : EndsGroup rest) :
    Ipv4.read (g ++ rest) = none := by
  cases hread : Ipv4.read (g ++ rest) with
  | none => rfl
  | some found =>
    -- The digits of the quad go as far as those of the group, and a dot comes behind them.
    have htext := Ipv4.eq_of_read hread
    have hdigits : g = Nat.toDigits 10 found.1.a.toNat := by
      rw [← takeWhile_group hg hrest, htext, Ipv4.toList_text, List.append_assoc,
        List.takeWhile_append_of_pos fun c hc =>
          isHexDigit_of_isDigit (Text.Decimal.isDigit_of_mem hc)]
      exact List.append_nil _
    rw [hdigits, Ipv4.toList_text, List.append_assoc, List.append_cancel_left_eq] at htext
    have hdot := hrest '.' (by rw [htext]; rfl)
    exact absurd hdot (by decide)

/-! ## The reader of groups -/

/-- Behind the first group `readSeparator` takes off a colon, and nothing else. -/
private theorem readSeparator_false_eq_some {body : List Char}
    (h : readSeparator false cs = some body) :
    cs = ':' :: body := by
  unfold readSeparator at h
  simp only [Bool.false_eq_true, if_false] at h
  split at h
  · rw [Option.some.inj h]
  · simp at h

/-- The reader finds nothing, or a dotted quad and is done, or a group and goes on. -/
private theorem readGroups_succ (limit : Nat) (first : Bool) (cs : List Char) :
    readGroups (limit + 1) first cs = (0, false, cs) ∨
      (∃ (x : Ipv4) (rest : List Char), 0 < limit ∧
        readSeparator first cs = some (x.text.toList ++ rest) ∧
        readGroups (limit + 1) first cs = (2, true, rest)) ∨
      ∃ g tail n quad rest, IsGroup g ∧ readSeparator first cs = some (g ++ tail) ∧
        readGroups limit false tail = (n, quad, rest) ∧
        readGroups (limit + 1) first cs = (n + 1, quad, rest) := by
  rw [readGroups]
  -- As `readGroups` tries them: no separator, then a dotted quad, then a group.
  split
  · exact .inl rfl
  · next body hbody =>
    split
    · next x rest hread =>
      split at hread
      · simp at hread
      · next hlimit =>
        refine .inr (.inl ⟨x, rest, Nat.pos_of_ne_zero hlimit, ?_, rfl⟩)
        rw [hbody, Ipv4.eq_of_read hread]
    · split
      · exact .inl rfl
      · next tail hgroup =>
        obtain ⟨g, hg, rfl⟩ := group_of_readGroup hgroup
        exact .inr (.inr ⟨g, tail, _, _, _, hg, hbody, rfl, rfl⟩)

/-- What is read as groups are groups. -/
theorem groups_of_readGroups {first : Bool} (h : readGroups limit first cs = (n, quad, rest)) :
    ∃ used, Groups n quad used ∧ n ≤ limit ∧
      (n = 0 ∧ cs = rest ∨ 0 < n ∧ readSeparator first cs = some (used ++ rest)) := by
  induction limit generalizing first cs n quad rest with
  | zero =>
    obtain ⟨rfl, rfl, rfl⟩ : 0 = n ∧ false = quad ∧ cs = rest := by simpa [readGroups] using h
    exact ⟨[], .none, Nat.le_refl 0, .inl ⟨rfl, rfl⟩⟩
  | succ limit ih =>
    rcases readGroups_succ limit first cs with hnone | ⟨x, tail, hlimit, hbody, hquad⟩ |
      ⟨g, tail, m, q, r, hg, hbody, hmore, hgroup⟩
    · obtain ⟨rfl, rfl, rfl⟩ : 0 = n ∧ false = quad ∧ cs = rest := by simpa [hnone] using h
      exact ⟨[], .none, Nat.zero_le _, .inl ⟨rfl, rfl⟩⟩
    · obtain ⟨rfl, rfl, rfl⟩ : 2 = n ∧ true = quad ∧ tail = rest := by simpa [hquad] using h
      exact ⟨_, .quad x, Nat.succ_le_succ hlimit, .inr ⟨Nat.zero_lt_two, hbody⟩⟩
    · obtain ⟨rfl, rfl, rfl⟩ : m + 1 = n ∧ q = quad ∧ r = rest := by simpa [hgroup] using h
      obtain ⟨used, hused, hle, ⟨rfl, rfl⟩ | ⟨hpos, hsep⟩⟩ := ih hmore
      -- Nothing was read after the group, so it is the last one.
      · cases hused
        exact ⟨g, .last hg, Nat.succ_le_succ hle, .inr ⟨Nat.one_pos, hbody⟩⟩
      · obtain ⟨k, rfl⟩ := Nat.exists_eq_add_one.mpr hpos
        -- More was read after it, behind a colon that belongs to what is used.
        rw [readSeparator_false_eq_some hsep] at hbody
        refine ⟨_, .cons hg hused, Nat.succ_le_succ hle, .inr ⟨Nat.succ_pos _, ?_⟩⟩
        rw [hbody, List.append_assoc, List.cons_append]

/-- A colon before the first group makes no difference if there is one. -/
private theorem readGroups_colon (h : (readGroups limit true cs).1 ≠ 0) :
    readGroups limit false (':' :: cs) = readGroups limit true cs := by
  cases limit with
  | zero => simp [readGroups] at h
  | succ limit =>
    simp only [readGroups, readSeparator, if_true, Bool.false_eq_true, if_false] at h ⊢
    -- The colon is the separator that is missing at the front; from there on the readings
    -- are one.
    split
    · rfl
    · next hquad =>
      rw [hquad] at h
      cases hgroup : readGroup cs with
      | none => simp [hgroup] at h
      | some tail => rfl

/-- Neither an IPv4 address nor a group begins with a colon. -/
private theorem read_colon (tail : List Char) :
    Ipv4.read (':' :: tail) = none ∧ readGroup (':' :: tail) = none := ⟨rfl, rfl⟩

/-- Where reading stops there is no group. -/
private theorem readGroups_stops (hrest : Stops rest) (limit : Nat) (first : Bool) :
    readGroups limit first rest = (0, false, rest) := by
  cases limit with
  | zero => rfl
  | succ limit =>
    rcases hrest with rfl | ⟨tail, rfl⟩
    · have hempty : Ipv4.read [] = none ∧ readGroup [] = none := ⟨rfl, rfl⟩
      cases first <;> simp [readGroups, readSeparator, hempty]
    · cases first <;> simp [readGroups, readSeparator, read_colon]

/-- A group is read, and then the reader goes on behind it. -/
private theorem readGroups_group {g tail : List Char} (hg : IsGroup g) (htail : EndsGroup tail)
    (hmore : readGroups limit false tail = (n, quad, rest)) :
    readGroups (limit + 1) true (g ++ tail) = (n + 1, quad, rest) := by
  rw [readGroups]
  simp only [readSeparator, if_true, read_group hg htail, ite_self, readGroup_append hg htail,
    hmore]

/-- All groups that stand before the end or before two colons are read. -/
theorem readGroups_append (hcs : Groups n quad cs) (hrest : Stops rest) (hlimit : n ≤ limit) :
    readGroups limit true (cs ++ rest) = (n, quad, rest) := by
  induction hcs generalizing limit with
  | none => exact readGroups_stops hrest limit true
  | last hg =>
    obtain ⟨limit, rfl⟩ := Nat.exists_eq_add_of_le' hlimit
    exact readGroups_group hg hrest.endsGroup (readGroups_stops hrest limit false)
  | quad x =>
    obtain ⟨limit, rfl⟩ := Nat.exists_eq_add_of_le' hlimit
    have hread := x.read_text_append fun c hc => hrest.endsGroup c hc ▸ rfl
    simp [readGroups, readSeparator, hread]
  | @cons g cs n quad hg _ ih =>
    -- A further group follows, so the limit is not used up and a colon is read next.
    obtain ⟨limit, rfl⟩ : ∃ l, limit = l + 1 := ⟨limit - 1, by omega⟩
    have hmore := ih (Nat.le_of_succ_le_succ hlimit)
    rw [List.append_assoc]
    apply readGroups_group hg (endsGroup_colon (cs ++ rest))
    rw [readGroups_colon (by rw [hmore]; exact Nat.succ_ne_zero n), hmore]

/-! ## Literals -/

/-- What `readGroups` takes off is the text of `n` groups, of which there are no more than the
`limit`. -/
private theorem exists_front_of_readGroups (h : readGroups limit true cs = (n, quad, rest)) :
    ∃ front, Groups n quad front ∧ n ≤ limit ∧ cs = front ++ rest := by
  obtain ⟨front, hfront, hle, ⟨rfl, rfl⟩ | ⟨-, hbody⟩⟩ := groups_of_readGroups h
  · cases hfront
    exact ⟨[], .none, hle, rfl⟩
  · exact ⟨front, hfront, hle, Option.some.inj hbody⟩

/-- Exactly the texts of the grammar are recognised. -/
theorem isLiteral_iff : isLiteral cs = true ↔ Spelling cs := by
  constructor
  · intro h
    obtain ⟨⟨m, quad, rest⟩, hread⟩ : ∃ w, readGroups 8 true cs = w := ⟨_, rfl⟩
    obtain ⟨front, hfront, hle, rfl⟩ := exists_front_of_readGroups hread
    simp only [isLiteral, hread] at h
    split at h
    · next hfull =>
      obtain rfl := List.isEmpty_iff.mp h
      rw [List.append_nil]
      exact .full (hfull ▸ hfront)
    · next hfew =>
      split at h
      · simp at h
      · next hquad =>
        obtain rfl : quad = false := by simpa using hquad
        split at h
        · next tail =>
          -- What stands behind the two colons is read to its end.
          obtain ⟨⟨n, quad, rest⟩, htail⟩ : ∃ w, readGroups (7 - m) true tail = w := ⟨_, rfl⟩
          obtain ⟨back, hback, hroom, rfl⟩ := exists_front_of_readGroups htail
          obtain rfl : rest = [] := by simpa [htail] using h
          rw [List.append_nil]
          exact .shortened hfront hback (by omega)
        · simp at h
  · intro h
    cases h with
    | full h =>
      have hread := readGroups_append h (.inl rfl) (Nat.le_refl 8)
      rw [List.append_nil] at hread
      simp [isLiteral, hread]
    | @shortened front back m n quad hfront hback hroom =>
      have hread := readGroups_append hfront (.inr ⟨back, rfl⟩) (show m ≤ 8 by omega)
      have htail := readGroups_append hback (.inl rfl) (show n ≤ 7 - m by omega)
      rw [List.append_nil] at htail
      have hfew : m ≠ 8 := by omega
      simp [isLiteral, hread, htail, hfew]

/-- Groups are made of hexadecimal digits, colons and dots. -/
private theorem Groups.mem (h : Groups n quad cs) :
    ∀ c ∈ cs, isHexDigit c = true ∨ c = ':' ∨ c = '.' := by
  induction h with
  | none => exact nofun
  | last hg => exact fun c hc => .inl (hg.digits c hc)
  | quad x =>
    intro c hc
    rcases Ipv4.isDigit_or_eq_of_mem_text hc with hdigit | hdot
    · exact .inl (isHexDigit_of_isDigit hdigit)
    · exact .inr (.inr hdot)
  | cons hg _ ih =>
    rw [List.forall_mem_append, List.forall_mem_cons]
    exact ⟨fun c hc => .inl (hg.digits c hc), .inr (.inl rfl), ih⟩

/-- A literal is written with hexadecimal digits, colons and dots. -/
private theorem Spelling.mem (h : Spelling cs) :
    ∀ c ∈ cs, isHexDigit c = true ∨ c = ':' ∨ c = '.' := by
  cases h with
  | full h => exact h.mem
  | shortened hfront hback =>
    rw [List.forall_mem_append, List.forall_mem_cons, List.forall_mem_cons]
    exact ⟨hfront.mem, .inr (.inl rfl), .inr (.inl rfl), hback.mem⟩

/-- Every spelling of an IPv6 address holds a colon. -/
private theorem Spelling.colon_mem (h : Spelling cs) : ':' ∈ cs := by
  cases h with
  | full h =>
    -- Eight groups are more than one group or one dotted quad.
    cases h
    simp
  | shortened => simp

/-- No text is a literal of both kinds. -/
theorem Spelling.ne_text (h : Spelling cs) (x : Ipv4) : cs ≠ x.text.toList := by
  rintro rfl
  exact Ipv4.notMem_text (by decide) (by decide) x h.colon_mem

/-! ## Zones -/

/-- A literal, and behind it the zone in which it is valid. -/
def Zoned (cs : List Char) : Prop :=
  ∃ literal zone, Spelling literal ∧ zone ≠ [] ∧ cs = literal ++ '%' :: zone

/-- An address with a zone holds a percent sign. -/
private theorem Zoned.percent_mem (h : Zoned cs) : '%' ∈ cs := by
  obtain ⟨literal, zone, -, -, rfl⟩ := h
  simp

/-- With a zone behind it a literal is none. -/
theorem Zoned.not_spelling (h : Zoned cs) : ¬Spelling cs := by
  intro hcs
  rcases hcs.mem _ h.percent_mem with hdigit | hcolon | hdot
  · exact absurd hdigit (by decide)
  · exact absurd hcolon (by decide)
  · exact absurd hdot (by decide)

/-- No address with a zone is the `text` of an IPv4 address. -/
theorem Zoned.ne_text (h : Zoned cs) (x : Ipv4) : cs ≠ x.text.toList := by
  rintro rfl
  exact Ipv4.notMem_text (by decide) (by decide) x h.percent_mem

end EgressControl.Ipv6
