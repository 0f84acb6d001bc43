import EgressControl.Proofs.Allow.History
import Mathlib.Data.List.Dedup

/-!
# Writing many addresses

Addresses are written one after the other, and the first one that is turned down ends the matter.
Whether this happens does not depend on their order: none of them may be one that cannot be written,
and there must be room for those that are new, each counted once (`MemoryStore.Accepts`).
`accepts_cons` ties this to the single writes.

- `seedEach_cases`: what is written and told, in any kind of store;
- `foldlM_put_eq_ok_iff`: when all writes go well, and what is in the store then;
- `accepts_congr`, `markAll_congr`, `accepts_markAll`: order and repetition make no difference;
- `seed_exactly`: success and failure of `seed`.
-/

namespace EgressControl

attribute [ext] MemoryStore

namespace MemoryStore

/-- Those addresses of a list that are not in the store, each once. -/
def newcomers (s : MemoryStore) (xs : List Ipv4) : List Ipv4 :=
  (xs.filter fun x => !s.entries.contains x.key).dedup

/-- All addresses of a list can be written, and there is room for those that are new, if there are
any. -/
def Accepts (s : MemoryStore) (xs : List Ipv4) : Prop :=
  (∀ x ∈ xs, x ∉ s.rejected) ∧
    (s.newcomers xs = [] ∨ ∀ c, s.capacity = some c → s.entries.size + (s.newcomers xs).length ≤ c)

/-- One store is another one in which some addresses have been marked. -/
structure Gains (s t : MemoryStore) (xs : List Ipv4) : Prop where
  get?_eq : ∀ key, t.entries.get? key =
    if ∃ x ∈ xs, x.key = key then some allowPresent else s.entries.get? key
  capacity : t.capacity = s.capacity
  rejected : t.rejected = s.rejected

/-- Marks an address, whether or not there is room for it. -/
def mark (s : MemoryStore) (x : Ipv4) : MemoryStore :=
  { s with entries := s.entries.insert x.key allowPresent }

/-- Marks the addresses of a list. -/
def markAll (s : MemoryStore) (xs : List Ipv4) : MemoryStore := xs.foldl mark s

variable {s t : MemoryStore} {x : Ipv4} {xs ys : List Ipv4}

/-! ## Marking -/

/-- `mark` writes one entry, and changes no other. -/
private theorem get?_mark (s : MemoryStore) (x : Ipv4) (key : UInt32) :
    (s.mark x).entries.get? key =
      if key = x.key then some allowPresent else s.entries.get? key := by
  simp only [mark, Table.get?_insert, Std.LawfulEqCmp.compare_eq_iff_eq]

/-- `markAll` gains the marks of its addresses, and changes nothing else (`Gains`). -/
private theorem gains_markAll (s : MemoryStore) (xs : List Ipv4) : s.Gains (s.markAll xs) xs := by
  induction xs generalizing s with
  | nil => exact ⟨by simp [markAll], rfl, rfl⟩
  | cons x xs ih =>
    obtain ⟨hget, hcapacity, hrejected⟩ := ih (s.mark x)
    refine ⟨fun key => ?_, hcapacity, hrejected⟩
    show ((s.mark x).markAll xs).entries.get? key = _
    rw [hget, get?_mark]
    simp only [List.mem_cons, exists_eq_or_imp]
    -- A key is marked by a later address, or by the first one, or it is as it was.
    by_cases hlater : ∃ y ∈ xs, y.key = key
    · rw [if_pos hlater, if_pos (.inr hlater)]
    · by_cases hfirst : x.key = key
      · rw [if_neg hlater, if_pos hfirst.symm, if_pos (.inl hfirst)]
      · rw [if_neg hlater, if_neg (Ne.symm hfirst), if_neg (not_or.mpr ⟨hfirst, hlater⟩)]

/-- There is but one store that has gained some addresses. -/
private theorem Gains.eq_markAll (h : s.Gains t xs) : t = s.markAll xs := by
  have hmark := gains_markAll s xs
  apply MemoryStore.ext
  · exact Table.ext_get? fun key => (h.get?_eq key).trans (hmark.get?_eq key).symm
  · exact h.capacity.trans hmark.capacity.symm
  · exact h.rejected.trans hmark.rejected.symm

/-- In which order addresses are marked, and how often, makes no difference. -/
theorem markAll_congr (h : ∀ y, y ∈ ys ↔ y ∈ xs) : s.markAll ys = s.markAll xs := by
  obtain ⟨hget, hcapacity, hrejected⟩ := gains_markAll s ys
  refine Gains.eq_markAll ⟨fun key => ?_, hcapacity, hrejected⟩
  rw [hget]
  simp only [h]

/-- What has been marked can be marked again, and nothing changes. -/
private theorem markAll_markAll (s : MemoryStore) (xs : List Ipv4) :
    (s.markAll xs).markAll xs = s.markAll xs := by
  have htwice : (s.markAll xs).markAll xs = s.markAll (xs ++ xs) := (List.foldl_append ..).symm
  rw [htwice]
  exact markAll_congr fun y => by simp

/-! ## What is accepted -/

/-- `newcomers` are those addresses that the store does not hold yet. -/
private theorem mem_newcomers_iff :
    x ∈ s.newcomers xs ↔ x ∈ xs ∧ s.entries.contains x.key = false := by
  simp [newcomers]

/-- No address is counted twice among the `newcomers`. -/
private theorem nodup_newcomers (s : MemoryStore) (xs : List Ipv4) : (s.newcomers xs).Nodup :=
  List.nodup_dedup _

/-- The `newcomers` depend on which addresses there are, up to their order. -/
private theorem newcomers_perm (h : ∀ y, y ∈ ys ↔ y ∈ xs) :
    (s.newcomers ys).Perm (s.newcomers xs) := by
  rw [List.perm_ext_iff_of_nodup (nodup_newcomers s ys) (nodup_newcomers s xs)]
  intro y
  rw [mem_newcomers_iff, mem_newcomers_iff, h]

/-- Whether a store `Accepts` addresses depends on which they are, not on their order or number. -/
theorem accepts_congr (h : ∀ y, y ∈ ys ↔ y ∈ xs) : s.Accepts ys ↔ s.Accepts xs := by
  have hperm := newcomers_perm (s := s) h
  have hnil : s.newcomers ys = [] ↔ s.newcomers xs = [] := by
    rw [← List.length_eq_zero_iff, hperm.length_eq, List.length_eq_zero_iff]
  simp only [Accepts, h, hnil, hperm.length_eq]

/-- `mark` adds its address, and no other. -/
private theorem contains_mark (s : MemoryStore) (x y : Ipv4) :
    (s.mark x).entries.contains y.key = true ↔ y = x ∨ s.entries.contains y.key = true := by
  rw [mark, Table.contains_insert, Ipv4.key_inj]

/-- An address that is there already is no newcomer, and takes no room. -/
private theorem newcomers_cons_of_contains (xs : List Ipv4) (h : s.entries.contains x.key = true) :
    s.newcomers (x :: xs) = (s.mark x).newcomers xs ∧
      (s.mark x).entries.size = s.entries.size := by
  constructor
  · have hsame (y : Ipv4) : (s.mark x).entries.contains y.key = s.entries.contains y.key := by
      rw [Bool.eq_iff_iff, contains_mark]
      by_cases hy : y = x
      · subst hy
        simp [h]
      · simp [hy]
    simp only [newcomers, hsame, List.filter_cons, h, Bool.not_true, Bool.false_eq_true, if_false]
  · simp [mark, Table.insert, Table.size_alter, h]

/-- A newcomer takes the room of one. -/
private theorem newcomers_cons_of_not_contains (xs : List Ipv4)
    (h : s.entries.contains x.key = false) :
    (s.newcomers (x :: xs)).length = ((s.mark x).newcomers xs).length + 1 ∧
      (s.mark x).entries.size = s.entries.size + 1 := by
  constructor
  -- Both sides list the same addresses once, so the order of the lists does not matter.
  · have hperm : (s.newcomers (x :: xs)).Perm (x :: (s.mark x).newcomers xs) := by
      have hnew : x ∉ (s.mark x).newcomers xs := by
        rw [mem_newcomers_iff, Bool.eq_false_iff, ne_eq, contains_mark]
        simp
      rw [List.perm_ext_iff_of_nodup (nodup_newcomers s _)
        (List.nodup_cons.mpr ⟨hnew, nodup_newcomers _ xs⟩)]
      intro y
      rw [mem_newcomers_iff, List.mem_cons, List.mem_cons, mem_newcomers_iff, Bool.eq_false_iff,
        Bool.eq_false_iff, ne_eq, ne_eq, contains_mark]
      by_cases hy : y = x
      · subst hy
        simp [h]
      · simp [hy]
    exact hperm.length_eq
  · simp [mark, Table.insert, Table.size_alter, h]

/-- The first address of a list must not be turned down, and then the others must be accepted. -/
theorem accepts_cons : s.Accepts (x :: xs) ↔ ¬s.Refuses x ∧ (s.mark x).Accepts xs := by
  have hcapacity : (s.mark x).capacity = s.capacity := rfl
  have hrejected : (s.mark x).rejected = s.rejected := rfl
  simp only [Accepts, Refuses, hasRoom_eq_false_iff, hcapacity, hrejected, List.forall_mem_cons]
  cases hin : s.entries.contains x.key with
  | true =>
    obtain ⟨hnew, hsize⟩ := newcomers_cons_of_contains xs hin
    rw [hnew, hsize]
    simp only [reduceCtorEq, false_and, or_false, and_assoc]
  | false =>
    obtain ⟨hnew, hsize⟩ := newcomers_cons_of_not_contains xs hin
    -- There is a newcomer, so that there must be room.
    have hsome : s.newcomers (x :: xs) ≠ [] := by
      intro hnil
      rw [hnil] at hnew
      simp at hnew
    rw [hnew, hsize, ← List.length_eq_zero_iff (l := (s.mark x).newcomers xs)]
    simp only [hsome, false_or, true_and]
    -- What is left is how many there is room for.
    cases s.capacity with
    | none => simp
    | some c =>
      simp only [Option.some.injEq, forall_eq', exists_eq_left']
      constructor
      · intro h
        obtain ⟨⟨hx, hxs⟩, hroom⟩ := h
        exact ⟨not_or.mpr ⟨hx, by omega⟩, hxs, by omega⟩
      · intro h
        obtain ⟨hopen, hxs, hroom⟩ := h
        obtain ⟨hx, hfull⟩ := not_or.mp hopen
        exact ⟨⟨hx, hxs⟩, by omega⟩

/-- All writes go well exactly if the addresses are accepted, and then they are all marked. -/
theorem foldlM_put_eq_ok_iff :
    xs.foldlM put s = .ok t ↔ s.Accepts xs ∧ t = s.markAll xs := by
  induction xs generalizing s with
  | nil =>
    have haccepts : s.Accepts [] := ⟨by simp, .inl rfl⟩
    constructor
    · intro h
      exact ⟨haccepts, (Except.ok.inj h).symm⟩
    · intro h
      rw [h.2]
      rfl
  | cons x xs ih =>
    rw [accepts_cons, List.foldlM_cons, and_assoc]
    cases hput : s.put x with
    | error e =>
      -- The first address is turned down, so that neither side is true.
      have hrefuses := refuses_of_put_error hput
      simp [hrefuses, Bind.bind, Except.bind]
    | ok u =>
      obtain ⟨hopen, rfl⟩ := put_eq_ok_iff.mp hput
      simp only [hopen, not_false_eq_true, true_and]
      exact ih

/-- What has been marked is accepted again. -/
theorem accepts_markAll (h : s.Accepts xs) : (s.markAll xs).Accepts xs := by
  obtain ⟨hget, -, hrejected⟩ := gains_markAll s xs
  -- All of them are there, and none is new any more.
  refine ⟨fun x hx => hrejected ▸ h.1 x hx, .inl ?_⟩
  rw [List.eq_nil_iff_forall_not_mem]
  intro x hx
  obtain ⟨hx, hnew⟩ := mem_newcomers_iff.mp hx
  rw [Table.contains, hget, if_pos ⟨x, hx, rfl⟩] at hnew
  exact absurd hnew (by decide)

end MemoryStore

namespace AllowManager

/-- All addresses are written and told, or those before the first one that is turned down. -/
theorem seedEach_cases {σ : Type} [AllowStore σ] (m : AllowManager σ) (xs : List Ipv4) :
    (∃ t, xs.foldlM AllowStore.put m.store = .ok t ∧
      m.seedEach xs = ⟨{ m with store := t }, xs.map seedLine, xs.length, none⟩) ∨
    (∃ before x after t e, xs = before ++ x :: after ∧
      before.foldlM AllowStore.put m.store = .ok t ∧ AllowStore.put t x = .error e ∧
      m.seedEach xs = ⟨{ m with store := t }, before.map seedLine, before.length, some e⟩) := by
  induction xs generalizing m with
  | nil => exact .inl ⟨m.store, rfl, rfl⟩
  | cons x xs ih =>
    cases hput : AllowStore.put m.store x with
    | error e =>
      exact .inr ⟨[], x, xs, m.store, e, rfl, rfl, hput, by simp only [seedEach, hput]; rfl⟩
    | ok u =>
      -- `x` is stored: the rest either goes through as well, or stops at some `y` after it.
      rcases ih { m with store := u } with
        ⟨t, hfold, heq⟩ | ⟨before, y, after, t, e, rfl, hfold, hy, heq⟩
      · refine .inl ⟨t, ?_, ?_⟩
        · rw [List.foldlM_cons, hput]
          exact hfold
        · simp only [seedEach, hput, heq, List.map_cons, List.length_cons]
      · refine .inr ⟨x :: before, y, after, t, e, rfl, ?_, hy, ?_⟩
        · rw [List.foldlM_cons, hput]
          exact hfold
        · simp only [seedEach, hput, heq, List.map_cons, List.length_cons]

section

variable (m : AllowManager MemoryStore) {xs ys : List Ipv4}

/-- If the store `Accepts` all addresses, `seed` writes, counts and tells each of them. -/
private theorem seed_of_accepts (h : m.store.Accepts xs) :
    m.seed xs = ⟨{ m with store := m.store.markAll xs },
      xs.map seedLine ++ [seedCountLine xs.length], xs.length, none⟩ := by
  rcases m.seedEach_cases xs with ⟨t, hfold, heq⟩ | ⟨before, x, after, t, e, rfl, hfold, hput, -⟩
  · obtain ⟨-, rfl⟩ := MemoryStore.foldlM_put_eq_ok_iff.mp hfold
    simp only [seed, heq]
  · -- If all are accepted, the write of `x` cannot fail.
    have hall := MemoryStore.foldlM_put_eq_ok_iff.mpr ⟨h, rfl⟩
    have hx : MemoryStore.put t x = .error e := hput
    have hbefore : before.foldlM MemoryStore.put m.store = .ok t := hfold
    simp [List.foldlM_append, List.foldlM_cons, hbefore, hx, Bind.bind, Except.bind] at hall

/-- If the store does not accept all addresses, `seed` writes those before the first one that is
turned down, and tells them and the failure. -/
private theorem seed_of_not_accepts (h : ¬m.store.Accepts xs) :
    ∃ before x after e, xs = before ++ x :: after ∧ m.store.Accepts before ∧
      (m.store.markAll before).put x = .error e ∧
      m.seed xs = ⟨{ m with store := m.store.markAll before }, before.map seedLine,
        before.length, some e⟩ := by
  rcases m.seedEach_cases xs with ⟨t, hfold, -⟩ | ⟨before, x, after, t, e, rfl, hfold, hput, heq⟩
  · exact absurd (MemoryStore.foldlM_put_eq_ok_iff.mp hfold).1 h
  · obtain ⟨hbefore, rfl⟩ := MemoryStore.foldlM_put_eq_ok_iff.mp hfold
    exact ⟨before, x, after, e, rfl, hbefore, hput, by simp only [seed, heq]⟩

/-- The line on the number of seeds is none of the lines on single seeds. -/
private theorem not_mem_map_seedLine (xs : List Ipv4) (count : Nat) :
    seedCountLine count ∉ xs.map seedLine := by
  simp [seedLine, seedCountLine, Log.Line.debug, Log.Line.info]

end

/-- What `seed` makes of the addresses `xs`. -/
structure SeedsExactly (m : AllowManager MemoryStore) (xs : List Ipv4) : Prop where
  /-- It succeeds exactly if the store `Accepts` them. -/
  succeeds_iff : (∃ count, (m.seed xs).result = .ok count) ↔ m.store.Accepts xs
  /-- Then the store `Gains` all of them, and each is told, and their number at the end. -/
  success : m.store.Accepts xs →
    (m.seed xs).result = .ok xs.length ∧ m.store.Gains (m.seed xs).manager.store xs ∧
      (m.seed xs).logs = xs.map seedLine ++ [seedCountLine xs.length]
  /-- A list of the same addresses has the same outcome, whatever their order and however often
  each of them is in it. -/
  rearranged : ∀ ys, (∀ y, y ∈ ys ↔ y ∈ xs) → m.store.Accepts xs →
    (m.seed ys).result = .ok ys.length ∧ (m.seed ys).manager.store = (m.seed xs).manager.store
  /-- `seed` with the same addresses again succeeds and changes nothing. -/
  repeated : m.store.Accepts xs →
    ((m.seed xs).manager.seed xs).result = .ok xs.length ∧
      ((m.seed xs).manager.seed xs).manager = (m.seed xs).manager
  /-- Otherwise `put` fails on a first address `x`, and this is the `result`.  The store `Gains` the
  addresses before `x`, and no `seedCountLine` is told. -/
  failure : ¬m.store.Accepts xs →
    ∃ before x after e, xs = before ++ x :: after ∧
      (m.seed before).result = .ok before.length ∧
      (m.seed before).manager.store.put x = .error e ∧
      (m.seed xs).result = .error (.map mapName e) ∧
      m.store.Gains (m.seed xs).manager.store before ∧
      (m.seed xs).logs = before.map seedLine ∧ ∀ count, seedCountLine count ∉ (m.seed xs).logs
  /-- `seed` never changes the `extended` addresses. -/
  extended : (m.seed xs).manager.extended = m.extended

/-- `seed` succeeds exactly if the store `Accepts` the addresses, and then it `Gains` all of them;
otherwise it `Gains` those in front of the first one that `put` refuses (`SeedsExactly`). -/
theorem seed_exactly (m : AllowManager MemoryStore) (xs : List Ipv4) : m.SeedsExactly xs where
  succeeds_iff := by
    constructor
    · intro hsuccess
      obtain ⟨count, hcount⟩ := hsuccess
      -- Not accepted, the batch stops at an address and reports no count.
      apply Classical.byContradiction
      intro hnot
      obtain ⟨before, x, after, e, -, -, -, heq⟩ := seed_of_not_accepts m hnot
      rw [heq] at hcount
      simp [Seeding.result] at hcount
    · intro h
      exact ⟨xs.length, by rw [seed_of_accepts m h]; rfl⟩
  success := by
    intro h
    rw [seed_of_accepts m h]
    exact ⟨rfl, MemoryStore.gains_markAll m.store xs, rfl⟩
  rearranged := by
    intro ys hys h
    rw [seed_of_accepts m h, seed_of_accepts m ((MemoryStore.accepts_congr hys).mpr h)]
    exact ⟨rfl, MemoryStore.markAll_congr hys⟩
  repeated := by
    intro h
    rw [seed_of_accepts m h, seed_of_accepts _ (MemoryStore.accepts_markAll h)]
    simp only [MemoryStore.markAll_markAll]
    exact ⟨rfl, trivial⟩
  failure := by
    intro h
    obtain ⟨before, x, after, e, hxs, hbefore, hput, heq⟩ := seed_of_not_accepts m h
    refine ⟨before, x, after, e, hxs, ?_⟩
    -- What stands before the refused address is a batch that is accepted.
    rw [heq, seed_of_accepts m hbefore]
    exact ⟨rfl, hput, rfl, MemoryStore.gains_markAll m.store before, rfl,
      not_mem_map_seedLine before⟩
  extended := (extended_seed m xs).1

end AllowManager

end EgressControl
