import EgressControl.Hook
import EgressControl.Override
import EgressControl.Proofs.Text.Blank
import Mathlib.Data.List.Induction

/-!
# How overrides are read and where they count

What an item says is stated without reading it: it assigns a target to a program if both stand in it
around an equals sign, perhaps with white space around them (`Assigns`), or it is malformed
(`Malformed`), and never both (`parse?_eq_some_iff`, `parse?_eq_none_iff`).

A list with a malformed item is turned down because of the first one
(`parseAll_of_first_malformed`).  Of any other list the last item on a program counts
(`get?_assignments_iff`), and the table that it gives can be written down and read back
(`parseAll_written`).  `parseAll_first_malformed_or_last_assigned` puts this together and says
which targets programs have under such a table.
-/

namespace EgressControl.Override

open Text (AllBlank)

variable {program target : String} {items : List String}

/-! ## What an item says -/

/-- A name: it is not empty, and there is no white space at its ends. -/
structure IsName (name : String) : Prop where
  ne_nil : name.toList ≠ []
  trimmed : Text.Trimmed name.toList

/-- A name that can be given before an equals sign. -/
structure IsProgram (name : String) : Prop extends IsName name where
  sign_notMem : '=' ∉ name.toList

/-- An item assigns a target to a program.  The target goes on to the end, and equals signs may be
in it. -/
structure Assigns (item program target : String) : Prop where
  isProgram : IsProgram program
  isName : IsName target
  text : ∃ a b c d, AllBlank a ∧ AllBlank b ∧ AllBlank c ∧ AllBlank d ∧
    item.toList = (a ++ program.toList ++ b) ++ '=' :: (c ++ target.toList ++ d)

/-- An item that assigns nothing: there is no equals sign in it, or nothing but white space on one
side of the first one. -/
inductive Malformed (item : String) : Prop
  | noSign (h : '=' ∉ item.toList)
  | noProgram {before after : List Char} (h : item.toList = before ++ '=' :: after)
    (hfirst : '=' ∉ before) (hblank : AllBlank before)
  | noTarget {before after : List Char} (h : item.toList = before ++ '=' :: after)
    (hfirst : '=' ∉ before) (hblank : AllBlank after)

/-- What is read of an item with an equals sign. -/
private theorem parse?_of_cut {item : String} {before after : List Char}
    (h : item.toList = before ++ '=' :: after) (hfirst : '=' ∉ before) :
    parse? item =
      if AllBlank before ∨ AllBlank after then none
      else some (.ofList (Text.trimChars before), .ofList (Text.trimChars after)) := by
  simp only [parse?, Text.cutFirst_eq_some_iff.mpr ⟨h, hfirst⟩, Bool.or_eq_true, List.isEmpty_iff,
    Text.trimChars_eq_nil_iff]

/-- What is left of a text without the white space around it is a name, unless nothing is left. -/
private theorem isName_trimChars {cs : List Char} (h : ¬AllBlank cs) :
    IsName (.ofList (Text.trimChars cs)) where
  ne_nil := by rwa [String.toList_ofList, ne_eq, Text.trimChars_eq_nil_iff]
  trimmed := by
    rw [String.toList_ofList]
    exact Text.trimmed_trimChars cs

/-- A text in which a name stands is not all white space. -/
private theorem IsName.not_allBlank {name : String} (h : IsName name) (a b : List Char) :
    ¬AllBlank (a ++ name.toList ++ b) := fun hblank => by
  have hhead := h.trimmed.head h.ne_nil
  rw [hblank _ (by simp)] at hhead
  contradiction

/-- Exactly what an item assigns is read. -/
theorem parse?_eq_some_iff {item : String} :
    parse? item = some (program, target) ↔ Assigns item program target := by
  constructor
  · intro hread
    cases hcut : Text.cutFirst '=' item.toList with
    | none => simp [parse?, hcut] at hread
    | some parts =>
      obtain ⟨before, after⟩ := parts
      obtain ⟨htext, hfirst⟩ := Text.cutFirst_eq_some_iff.mp hcut
      rw [parse?_of_cut htext hfirst] at hread
      split at hread
      · contradiction
      next hblank =>
        rw [not_or] at hblank
        obtain ⟨rfl, rfl⟩ := Prod.mk.inj (Option.some.inj hread)
        refine ⟨⟨isName_trimChars hblank.1, fun hmem => ?_⟩, isName_trimChars hblank.2, ?_⟩
        · rw [String.toList_ofList] at hmem
          exact hfirst (Text.mem_of_mem_trimChars hmem)
        · -- What trimming drops is the white space around the names.
          obtain ⟨a, b, ha, hb, hbefore⟩ := Text.exists_padding before
          obtain ⟨c, d, hc, hd, hafter⟩ := Text.exists_padding after
          refine ⟨a, b, c, d, ha, hb, hc, hd, ?_⟩
          rw [String.toList_ofList, String.toList_ofList, ← hbefore, ← hafter, htext]
  · intro hassigns
    obtain ⟨a, b, c, d, ha, hb, hc, hd, htext⟩ := hassigns.text
    have hsign : Text.isBlank '=' = false := rfl
    have hfirst : '=' ∉ a ++ program.toList ++ b := by
      simp [ha.notMem hsign, hassigns.isProgram.sign_notMem, hb.notMem hsign]
    rw [parse?_of_cut htext hfirst, if_neg, Text.trimChars_padded ha hb,
      Text.trimChars_padded hc hd, hassigns.isProgram.trimmed.trimChars_eq,
      hassigns.isName.trimmed.trimChars_eq, String.ofList_toList, String.ofList_toList]
    rintro (hblank | hblank)
    · exact hassigns.isProgram.not_allBlank a b hblank
    · exact hassigns.isName.not_allBlank c d hblank

/-- `parse?` fails exactly on `Malformed` items. -/
theorem parse?_eq_none_iff {item : String} : parse? item = none ↔ Malformed item := by
  cases hcut : Text.cutFirst '=' item.toList with
  | none =>
    refine iff_of_true (by simp [parse?, hcut]) (.noSign (Text.cutFirst_eq_none_iff.mp hcut))
  | some parts =>
    obtain ⟨before, after⟩ := parts
    obtain ⟨htext, hfirst⟩ := Text.cutFirst_eq_some_iff.mp hcut
    rw [parse?_of_cut htext hfirst, ite_eq_left_iff]
    -- All ways to be malformed speak of this place, since it is the first one.
    have hsame {l r : List Char} (h : item.toList = l ++ '=' :: r) (hl : '=' ∉ l) :
        before = l ∧ after = r := by
      rw [Text.cutFirst_eq_some_iff.mpr ⟨h, hl⟩, Option.some.injEq, Prod.mk.injEq] at hcut
      exact ⟨hcut.1.symm, hcut.2.symm⟩
    constructor
    · intro hnone
      rcases not_imp_comm.mp hnone nofun with hblank | hblank
      · exact .noProgram htext hfirst hblank
      · exact .noTarget htext hfirst hblank
    · rintro (hsign | ⟨h, hl, hblank⟩ | ⟨h, hl, hblank⟩) hnot
      · exact absurd (by simp [htext]) hsign
      · exact absurd (.inl ((hsame h hl).1 ▸ hblank)) hnot
      · exact absurd (.inr ((hsame h hl).2 ▸ hblank)) hnot

/-- An item is `Malformed` or assigns a target to a program. -/
private theorem not_malformed_iff {item : String} :
    ¬Malformed item ↔ ∃ program target, Assigns item program target := by
  rw [← parse?_eq_none_iff, ← ne_eq, Option.ne_none_iff_exists']
  simp only [Prod.exists, parse?_eq_some_iff]

/-! ## Lists of items -/

/-- What items assign, in their order. -/
def assignments (items : List String) : List (String × String) := items.filterMap parse?

/-- Items that are well formed are read one after the other, and then the rest is. -/
private theorem parseOnto_append {before : List String} (h : ∀ item ∈ before, ¬Malformed item)
    (table : Table String String) (rest : List String) :
    parseOnto table (before ++ rest) =
      parseOnto ((assignments before).foldl (fun t e => t.insert e.1 e.2) table) rest := by
  induction before generalizing table with
  | nil => rfl
  | cons item before ih =>
    obtain ⟨hitem, hbefore⟩ := List.forall_mem_cons.mp h
    obtain ⟨program, target, hassigns⟩ := not_malformed_iff.mp hitem
    have hread := parse?_eq_some_iff.mpr hassigns
    rw [List.cons_append, parseOnto, hread, assignments, List.filterMap_cons_some hread,
      List.foldl_cons]
    exact ih hbefore _

/-- A list without `Malformed` items is read, and later assignments replace earlier ones. -/
theorem parseAll_of_wellFormed (h : ∀ item ∈ items, ¬Malformed item) :
    parseAll items = .ok (.ofList (assignments items)) := by
  have hread := parseOnto_append h .empty []
  rw [List.append_nil] at hread
  exact hread

/-- The first malformed item is reported, whatever comes after it. -/
theorem parseAll_of_first_malformed {before after : List String} {item : String}
    (h : ∀ i ∈ before, ¬Malformed i) (hitem : Malformed item) :
    parseAll (before ++ item :: after) = .error (.invalidOverride item) := by
  rw [parseAll, parseOnto_append h, parseOnto, parse?_eq_none_iff.mpr hitem]

/-- Every list is free of `Malformed` items or has a first one. -/
theorem wellFormed_or_first_malformed (items : List String) :
    (∀ item ∈ items, ¬Malformed item) ∨
      ∃ before item after, items = before ++ item :: after ∧ (∀ i ∈ before, ¬Malformed i) ∧
        Malformed item := by
  induction items with
  | nil => exact .inl nofun
  | cons item items ih =>
    by_cases hitem : Malformed item
    · exact .inr ⟨[], item, items, rfl, nofun, hitem⟩
    · rcases ih with hall | ⟨before, first, after, rfl, hbefore, hfirst⟩
      · exact .inl (List.forall_mem_cons.mpr ⟨hitem, hall⟩)
      · exact .inr ⟨item :: before, first, after, rfl, List.forall_mem_cons.mpr ⟨hitem, hbefore⟩,
          hfirst⟩

/-- The last item that assigns a target to a program assigns this one. -/
def LastAssigned (items : List String) (program target : String) : Prop :=
  ∃ before item after, items = before ++ item :: after ∧ Assigns item program target ∧
    ∀ later ∈ after, ∀ other, ¬Assigns later program other

/-- The last assignment to a program is that of the last item, or the one before if that item is
about another program. -/
private theorem lastAssigned_concat {item : String} :
    LastAssigned (items ++ [item]) program target ↔
      Assigns item program target ∨
        (∀ other, ¬Assigns item program other) ∧ LastAssigned items program target := by
  constructor
  · rintro ⟨before, found, after, heq, hfound, hafter⟩
    -- The item that counts is either the new one or one before it, with the new one among
    -- the later.
    rcases List.eq_nil_or_concat' after with rfl | ⟨after, last, rfl⟩
    · obtain ⟨-, rfl⟩ := List.append_singleton_inj.mp heq
      exact .inl hfound
    · rw [← List.cons_append, ← List.append_assoc, List.append_singleton_inj] at heq
      obtain ⟨rfl, rfl⟩ := heq
      refine .inr ⟨hafter item (by simp), before, found, after, rfl, hfound, ?_⟩
      exact fun later hlater => hafter later (by simp [hlater])
  · rintro (hitem | ⟨hitem, before, found, after, rfl, hfound, hafter⟩)
    · exact ⟨items, item, [], rfl, hitem, nofun⟩
    · refine ⟨before, found, after ++ [item], by simp, hfound, ?_⟩
      intro later hlater
      rcases List.mem_append.mp hlater with hlater | hlater
      · exact hafter later hlater
      · rwa [List.mem_singleton.mp hlater]

/-- The table holds what is assigned last. -/
theorem get?_assignments_iff :
    (Table.ofList (assignments items)).get? program = some target ↔
      LastAssigned items program target := by
  -- The induction takes items away at the end, since the last one is the one that counts.
  induction items using List.reverseRecOn with
  | nil => simp [assignments, Table.ofList, LastAssigned]
  | append_singleton items item ih =>
    rw [lastAssigned_concat, ← ih, assignments, List.filterMap_append]
    cases hread : parse? item with
    | none =>
      have hnone (program target : String) : ¬Assigns item program target := by
        simp [← parse?_eq_some_iff, hread]
      simp [hread, hnone, assignments]
    | some e =>
      obtain ⟨found, value⟩ := e
      have hassigns {program target : String} :
          Assigns item program target ↔ program = found ∧ value = target := by
        rw [← parse?_eq_some_iff, hread, Option.some.injEq, Prod.mk.injEq, eq_comm (a := found)]
      have hinsert : Table.ofList (items.filterMap parse? ++ [(found, value)]) =
          (Table.ofList (assignments items)).insert found value := List.foldl_concat ..
      simp only [List.filterMap_cons_some hread, List.filterMap_nil, hinsert, Table.get?_insert,
        Std.LawfulEqCmp.compare_eq_iff_eq, hassigns]
      by_cases hprogram : program = found <;> simp [hprogram]

/-- What is assigned last is assigned by one of the items. -/
private theorem LastAssigned.exists_assigns (h : LastAssigned items program target) :
    ∃ item ∈ items, Assigns item program target := by
  obtain ⟨before, item, after, rfl, hassigns, -⟩ := h
  exact ⟨item, by simp, hassigns⟩

/-- A program to which anything is assigned has a last assignment. -/
private theorem exists_lastAssigned {item : String} (hmem : item ∈ items)
    (h : Assigns item program target) : ∃ last, LastAssigned items program last := by
  induction items using List.reverseRecOn with
  | nil => contradiction
  | append_singleton items last ih =>
    simp only [lastAssigned_concat]
    -- If the last item assigns to `program`, it counts; otherwise the item is among the
    -- others.
    by_cases hlast : ∃ other, Assigns last program other
    · obtain ⟨other, hother⟩ := hlast
      exact ⟨other, .inl hother⟩
    · have hnone := not_exists.mp hlast
      rcases List.mem_append.mp hmem with hmem | hmem
      · obtain ⟨other, hother⟩ := ih hmem
        exact ⟨other, .inr ⟨hnone, hother⟩⟩
      · rw [List.mem_singleton.mp hmem] at h
        exact absurd h (hnone target)

/-! ## Tables that are written down -/

/-- `item` assigns the target to the program. -/
private theorem assigns_item (hprogram : IsProgram program) (htarget : IsName target) :
    Assigns (item program target) program target where
  isProgram := hprogram
  isName := htarget
  text := ⟨[], [], [], [], nofun, nofun, nofun, nofun, by simp [item]⟩

/-- A table of names is read back, in whatever order it is written. -/
theorem parseAll_written {table : Table String String} {entries : List (String × String)}
    (h : ∀ program target, table.get? program = some target → IsProgram program ∧ IsName target)
    (hperm : entries.Perm table.entries) :
    parseAll (entries.map fun e => item e.1 e.2) = .ok table := by
  have hassigns : ∀ e ∈ entries, Assigns (item e.1 e.2) e.1 e.2 := by
    intro e he
    obtain ⟨hprogram, htarget⟩ := h e.1 e.2 (Table.get?_eq_some_iff.mpr (hperm.mem_iff.mp he))
    exact assigns_item hprogram htarget
  -- Each item is read back as the entry it was written from, so the order alone may differ.
  have hread : assignments (entries.map fun e => item e.1 e.2) = entries := by
    rw [assignments, List.filterMap_map]
    exact (List.filterMap_congr fun e he => parse?_eq_some_iff.mpr (hassigns e he)).trans
      List.filterMap_some
  rw [parseAll_of_wellFormed, hread, Table.ofList_of_perm hperm]
  simp only [List.forall_mem_map, not_malformed_iff]
  exact fun e he => ⟨_, _, hassigns e he⟩

/-! ## Tables that are read -/

/-- What a table of overrides is for the items from which it is read, and what programs are bound to
under it. -/
structure ReadFrom (items : List String) (table : Table String String) : Prop where
  /-- Each item assigns a target to a program, which then has one in the table. -/
  assigned : ∀ item ∈ items, ∃ program target, Assigns item program target ∧
    table.contains program = true
  /-- The target of a program is the one that is assigned last, and there are no others. -/
  get?_iff : ∀ program target, table.get? program = some target ↔
    LastAssigned items program target
  names : ∀ program target, table.get? program = some target →
    IsProgram program ∧ IsName target
  /-- The table can be written as items, in any order, and is read back. -/
  written : ∀ entries : List (String × String), entries.Perm table.entries →
    parseAll (entries.map fun e => item e.1 e.2) = .ok table
  overridden : ∀ program target, LastAssigned items program target →
    AttachTarget.resolve table .functionEntry program = .symbol target ∧
      AttachTarget.resolve table .tracing program = .typed target
  /-- A program to which nothing is assigned is bound to what has its own name. -/
  own : ∀ program, (∀ item ∈ items, ∀ target, ¬Assigns item program target) →
    AttachTarget.resolve table .functionEntry program = .symbol program ∧
      AttachTarget.resolve table .tracing program = .typed program
  fixed : ∀ program,
    AttachTarget.resolve table .tracepoint program =
        .tracepoint "syscalls" "sys_enter_connect" ∧
      AttachTarget.resolve table .cgroupEgress program = .cgroup "/sys/fs/cgroup"

/-- In the table of assignments there are only names. -/
private theorem names_of_get?_assignments
    (h : (Table.ofList (assignments items)).get? program = some target) :
    IsProgram program ∧ IsName target := by
  obtain ⟨item, -, hassigns⟩ := (get?_assignments_iff.mp h).exists_assigns
  exact ⟨hassigns.isProgram, hassigns.isName⟩

/-- A program to which nothing is assigned is not in the table. -/
private theorem get?_assignments_eq_none
    (h : ∀ item ∈ items, ∀ target, ¬Assigns item program target) :
    (Table.ofList (assignments items)).get? program = none := by
  rw [Option.eq_none_iff_forall_ne_some]
  intro target hget
  obtain ⟨item, hmem, hassigns⟩ := (get?_assignments_iff.mp hget).exists_assigns
  exact h item hmem target hassigns

/-- A list without `Malformed` items gives the table of its assignments, with all that is said of it
by `ReadFrom`. -/
private theorem readFrom_assignments (h : ∀ item ∈ items, ¬Malformed item) :
    ReadFrom items (.ofList (assignments items)) where
  assigned item hmem := by
    obtain ⟨program, target, hassigns⟩ := not_malformed_iff.mp (h item hmem)
    -- The item may be overridden, but then a later one assigns to its program.
    obtain ⟨last, hlast⟩ := exists_lastAssigned hmem hassigns
    refine ⟨program, target, hassigns, ?_⟩
    rw [Table.contains, get?_assignments_iff.mpr hlast, Option.isSome_some]
  get?_iff _ _ := get?_assignments_iff
  names _ _ := names_of_get?_assignments
  written _ := parseAll_written fun _ _ => names_of_get?_assignments
  overridden program target hlast := by
    simp [AttachTarget.resolve, AttachTarget.symbolFor, get?_assignments_iff.mpr hlast]
  own program hnone := by
    simp [AttachTarget.resolve, AttachTarget.symbolFor, get?_assignments_eq_none hnone]
  fixed _ := ⟨rfl, rfl⟩

/-- `parseAll` fails with `invalidOverride` on the first item that is `Malformed`; if none is, the
table that it gives is `ReadFrom` the items. -/
theorem parseAll_first_malformed_or_last_assigned (items : List String) :
    (∃ before item after, items = before ++ item :: after ∧ (∀ i ∈ before, ¬Malformed i) ∧
        Malformed item ∧ parseAll items = .error (.invalidOverride item)) ∨
      (∀ item ∈ items, ¬Malformed item) ∧
        ∃ table, parseAll items = .ok table ∧ ReadFrom items table := by
  rcases wellFormed_or_first_malformed items with h | ⟨before, item, after, rfl, hbefore, hitem⟩
  · exact .inr ⟨h, _, parseAll_of_wellFormed h, readFrom_assignments h⟩
  · exact .inl ⟨before, item, after, rfl, hbefore, hitem, parseAll_of_first_malformed hbefore hitem⟩

/-- White space around the names does not count, the second item on a program does, and a target may
have equals signs in it. -/
example : (parseAll ["a=b", " a	= c=d ", "e =f"]).toOption.map Table.entries =
    some [("a", "c=d"), ("e", "f")] := by
  decide +kernel

end EgressControl.Override
