import EgressControl.Proofs.Address.DottedQuad
import EgressControl.Proofs.Allow.Observe
import EgressControl.Proofs.Allow.Store
import Mathlib.Data.List.Induction

/-!
# The history of an allow list

`AllowManager.Call` is what can be asked of a manager, and `run` asks one thing after the other, in
any order and whether or not it goes well.

- `MemoryStore.Writes`: which addresses a list of writes reaches before the first failure;
- `contains_next`, `extended_next`, `countP_tells_next`: what one call does to the store, to the
  addresses that count as let in, and to what has been told about them;
- `holds_run_iff`, `exists_first`: from one call to any number of them; `contains_run_iff` and
  `extended_run_iff` say what that comes to;
- `run_grows_exactly`: what is in the store in the end, and why (`Account`).
-/

namespace EgressControl

namespace MemoryStore

/-- Whatever is in the store is marked as allowed. -/
def Marked (s : MemoryStore) : Prop := ∀ key v, s.entries.get? key = some v → v = allowPresent

/-- Addresses are written one after the other, and `x` is one of them that comes before the first
failure. -/
def Writes (s : MemoryStore) (xs : List Ipv4) (x : Ipv4) : Prop :=
  ∃ before t, before ++ [x] <+: xs ∧ (before ++ [x]).foldlM put s = .ok t

/-- Without any addresses nothing is written. -/
theorem writes_nil (s : MemoryStore) (x : Ipv4) : ¬s.Writes [] x := by
  rintro ⟨before, t, hprefix, -⟩
  simp at hprefix

/-- The first address is written if there is room for it, and only then are those that follow. -/
theorem writes_cons {s : MemoryStore} {x y : Ipv4} {ys : List Ipv4} :
    s.Writes (y :: ys) x ↔ ∃ t, s.put y = .ok t ∧ (x = y ∨ t.Writes ys x) := by
  constructor
  · rintro ⟨before, u, hprefix, hput⟩
    -- The write of `x` is the first one, or it comes after the first has gone through.
    cases before with
    | nil =>
      obtain rfl : x = y := by simpa using hprefix
      exact ⟨u, by simpa using hput, .inl rfl⟩
    | cons z before =>
      obtain ⟨rfl, hrest⟩ := List.cons_prefix_cons.mp hprefix
      cases hz : s.put z with
      | error e => simp [hz, Bind.bind, Except.bind] at hput
      | ok t =>
        simp only [List.cons_append, List.foldlM_cons, hz] at hput
        exact ⟨t, rfl, .inr ⟨before, u, hrest, hput⟩⟩
  · rintro ⟨t, hy, rfl | ⟨before, u, hprefix, hput⟩⟩
    · exact ⟨[], t, by simp, by simpa using hy⟩
    · refine ⟨y :: before, u, by simpa [List.cons_prefix_cons] using hprefix, ?_⟩
      simp only [List.cons_append, List.foldlM_cons, hy]
      exact hput

/-- `Marked` is kept by `put`, which writes no other mark. -/
private theorem Marked.put {s t : MemoryStore} {x : Ipv4} (h : s.Marked) (hput : s.put x = .ok t) :
    t.Marked := by
  intro key v hv
  rw [get?_of_put hput] at hv
  split at hv
  · exact (Option.some.inj hv).symm
  · exact h key v hv

/-- In a store of marked addresses there is but one value that a key can have. -/
private theorem Marked.get?_eq {s : MemoryStore} (h : s.Marked) {key : UInt32}
    (hkey : s.entries.contains key = true) : s.entries.get? key = some allowPresent := by
  obtain ⟨v, hv⟩ := Option.isSome_iff_exists.mp hkey
  rw [hv, h key v hv]

end MemoryStore

namespace AllowManager

/-- What is asked of a manager: to write addresses, or to look at one with its names. -/
inductive Call where
  | seed (xs : List Ipv4)
  | observe (x : Ipv4) (names : List String)

/-- The manager after a call. -/
def next (m : AllowManager MemoryStore) : Call → AllowManager MemoryStore
  | .seed xs => (m.seed xs).manager
  | .observe x names => (m.observe x names).manager

/-- The lines that a call logs. -/
def logsOf (m : AllowManager MemoryStore) : Call → List Log.Line
  | .seed xs => (m.seed xs).logs
  | .observe x names => (m.observe x names).logs

/-- The manager after some calls. -/
def run (m : AllowManager MemoryStore) (calls : List Call) : AllowManager MemoryStore :=
  calls.foldl next m

/-- The lines that some calls log. -/
def told (m : AllowManager MemoryStore) : List Call → List Log.Line
  | [] => []
  | c :: rest => m.logsOf c ++ (m.next c).told rest

/-- A call writes an address that it was given, before its first failure. -/
def Seeds (m : AllowManager MemoryStore) (x : Ipv4) : Call → Prop
  | .seed xs => m.store.Writes xs x
  | .observe .. => False

/-- A call looks at an address and answers that it is let in. -/
def LetsIn (m : AllowManager MemoryStore) (x : Ipv4) : Call → Prop
  | .seed _ => False
  | .observe y names => x = y ∧ (m.observe y names).allowed = true

/-- A name contains one of the given texts. -/
def Matches (suffixes : List String) (name : String) : Prop :=
  ∃ s ∈ suffixes, s.toList <:+: name.toList

/-- Whether a line tells that an address has been let in because of a name. -/
def tells (x : Ipv4) (l : Log.Line) : Bool :=
  l.level = .info && ("allow-list extended: " ++ x.text ++ " (").toList.isPrefixOf l.text.toList

variable {m : AllowManager MemoryStore} {x y : Ipv4} {c : Call}

/-! ## What is told -/

/-- The `text` of an address holds no space. -/
private theorem space_notMem_text (x : Ipv4) : ' ' ∉ x.text.toList :=
  Ipv4.notMem_text (by decide) (by decide) x

/-- The text up to the bracket names one address only. -/
private theorem text_prefix_iff (x y : Ipv4) (rest : List Char) :
    x.text.toList ++ [' ', '('] <+: y.text.toList ++ ' ' :: '(' :: rest ↔ x = y := by
  constructor
  · rintro ⟨t, ht⟩
    rw [List.append_assoc] at ht
    -- Both texts end where the first space stands.
    have hx := Text.cutFirst_eq_some_iff.mpr ⟨ht.symm, space_notMem_text x⟩
    have hy := Text.cutFirst_eq_some_iff.mpr
      ⟨(rfl : y.text.toList ++ ' ' :: '(' :: rest = _), space_notMem_text y⟩
    rw [hy] at hx
    exact (Ipv4.text_inj.mp (String.toList_inj.mp (Prod.mk.inj (Option.some.inj hx)).1)).symm
  · rintro rfl
    exact ⟨rest, by simp⟩

/-- The line on an address that is let in because of a name tells of this address, and of no
other. -/
private theorem tells_extensionLine (x y : Ipv4) (name : String) :
    tells x (extensionLine y name) = decide (x = y) := by
  have hiff := text_prefix_iff x y (name.toList ++ [')'])
  rw [← List.isPrefixOf_iff_prefix] at hiff
  rw [Bool.eq_iff_iff, decide_eq_true_iff, ← hiff]
  simp [tells, extensionLine, Log.Line.info]

private theorem tells_seedLine (x y : Ipv4) : tells x (seedLine y) = false := rfl

private theorem tells_failureLine (x y : Ipv4) (e : MapError) :
    tells x (failureLine y e) = false := rfl

/-- The line on the number of first addresses tells of no address that is let in because of a
name. -/
private theorem tells_seedCountLine (x : Ipv4) (count : Nat) :
    tells x (seedCountLine count) = false := by
  simp [tells, seedCountLine, Log.Line.info, List.isPrefixOf]

/-- Writing addresses tells nothing about names. -/
private theorem countP_tells_seed (m : AllowManager MemoryStore) (xs : List Ipv4) (x : Ipv4) :
    (m.seed xs).logs.countP (tells x) = 0 := by
  -- The lines for single addresses are seed lines, and none of these tells of an extension.
  have heach (m : AllowManager MemoryStore) (xs : List Ipv4) :
      (m.seedEach xs).logs.countP (tells x) = 0 := by
    induction xs generalizing m with
    | nil => rfl
    | cons y ys ih =>
      cases hput : AllowStore.put m.store y with
      | error e => simp [seedEach, hput]
      | ok store => simp [seedEach, hput, tells_seedLine, ih]
  simp only [seed]
  split
  · simp [heach, tells_seedCountLine]
  · exact heach m xs

/-! ## What a call does -/

/-- `seed` lets nothing in because of a name, and leaves the suffixes alone. -/
theorem extended_seed (m : AllowManager MemoryStore) (xs : List Ipv4) :
    (m.seed xs).manager.extended = m.extended ∧ (m.seed xs).manager.suffixes = m.suffixes := by
  -- Seeding writes to the map alone.
  have heach (m : AllowManager MemoryStore) (xs : List Ipv4) :
      (m.seedEach xs).manager.extended = m.extended ∧
        (m.seedEach xs).manager.suffixes = m.suffixes := by
    induction xs generalizing m with
    | nil => exact ⟨rfl, rfl⟩
    | cons y ys ih =>
      cases hput : AllowStore.put m.store y with
      | error e => simp [seedEach, hput]
      | ok store => simpa [seedEach, hput] using ih { m with store }
  rw [manager_seed]
  exact heach m xs

/-- Addresses are written up to the first failure, and nothing else is. -/
private theorem contains_seedEach (m : AllowManager MemoryStore) (xs : List Ipv4) (x : Ipv4) :
    (m.seedEach xs).manager.store.entries.contains x.key = true ↔
      m.store.entries.contains x.key = true ∨ m.store.Writes xs x := by
  induction xs generalizing m with
  | nil => simp [seedEach, MemoryStore.writes_nil]
  | cons y ys ih =>
    rw [MemoryStore.writes_cons]
    cases hput : AllowStore.put m.store y with
    | error e =>
      have hput' : m.store.put y = .error e := hput
      simp [seedEach, hput, hput']
    | ok store =>
      have hput' : m.store.put y = .ok store := hput
      simp only [seedEach, hput, hput', ih { m with store }, Except.ok.injEq, exists_eq_left',
        MemoryStore.contains_of_put hput', Ipv4.key_inj]
      -- What is left is the order of the three alternatives.
      rw [or_comm (a := x = y), or_assoc]

/-- What every write keeps of a store is kept when addresses are written one after the other. -/
private theorem keeps_seedEach {P : MemoryStore → Prop}
    (hput : ∀ {s t x}, s.put x = .ok t → P s → P t)
    (h : P m.store) (xs : List Ipv4) : P (m.seedEach xs).manager.store := by
  induction xs generalizing m with
  | nil => exact h
  | cons y ys ih =>
    cases hy : AllowStore.put m.store y with
    | error e => simpa [seedEach, hy] using h
    | ok store =>
      simp only [seedEach, hy]
      exact ih (m := { m with store }) (hput hy h)

/-- No call changes the suffixes. -/
private theorem suffixes_next (m : AllowManager MemoryStore) (c : Call) :
    (m.next c).suffixes = m.suffixes := by
  cases c with
  | seed xs => exact (extended_seed m xs).2
  | observe y names =>
    rcases m.observe_cases y names with ⟨-, heq⟩ | ⟨_, _, -, -, heq⟩ | ⟨_, _, -, -, heq⟩ <;>
      simp only [next, heq]

/-- What every write keeps of a store is kept by every call. -/
private theorem keeps_next {P : MemoryStore → Prop} (hput : ∀ {s t x}, s.put x = .ok t → P s → P t)
    (h : P m.store) (c : Call) : P (m.next c).store := by
  cases c with
  | seed xs =>
    simp only [next, manager_seed]
    exact keeps_seedEach hput h xs
  | observe y names =>
    rcases m.observe_cases y names with
      ⟨-, heq⟩ | ⟨_, _, -, -, heq⟩ | ⟨_, store, -, hy, heq⟩ <;> simp only [next, heq]
    · exact h
    · exact h
    · exact hput hy h

/-- A call adds to the store what it writes before its first failure, or what it lets in. -/
theorem contains_next (m : AllowManager MemoryStore) (c : Call) (x : Ipv4) :
    (m.next c).store.entries.contains x.key = true ↔
      m.store.entries.contains x.key = true ∨ m.Seeds x c ∨ m.LetsIn x c := by
  cases c with
  | seed xs => simp only [next, manager_seed, contains_seedEach, Seeds, LetsIn, or_false]
  | observe y names =>
    rcases m.observe_cases y names with
      ⟨-, heq⟩ | ⟨_, _, -, -, heq⟩ | ⟨_, store, -, hput, heq⟩ <;>
      simp only [next, Seeds, LetsIn, heq]
    · simp
    · simp
    -- Only the last way to observe writes to the map.
    · rw [MemoryStore.contains_of_put hput, Ipv4.key_inj, or_comm]
      simp

/-- An address counts as let in from the first call that lets it in. -/
theorem extended_next (m : AllowManager MemoryStore) (c : Call) (x : Ipv4) :
    (m.next c).extended.contains x = true ↔ m.extended.contains x = true ∨ m.LetsIn x c := by
  cases c with
  | seed xs => simp only [next, extended_seed, LetsIn, or_false]
  | observe y names =>
    rcases m.observe_cases y names with
      ⟨-, heq⟩ | ⟨_, _, -, -, heq⟩ | ⟨_, store, -, -, heq⟩ <;> simp only [next, LetsIn, heq]
    · simp
    · simp
    · simp only [AddressSet.add, Table.contains_insert, and_true]
      exact or_comm

/-- What a call tells about an address is that it has been let in, if it has not been before. -/
theorem countP_tells_next (m : AllowManager MemoryStore) (c : Call) (x : Ipv4) :
    (m.logsOf c).countP (tells x) + (if m.extended.contains x then 1 else 0) =
      if (m.next c).extended.contains x then 1 else 0 := by
  cases c with
  | seed xs => simp only [logsOf, next, countP_tells_seed, extended_seed, Nat.zero_add]
  | observe y names =>
    rcases m.observe_cases y names with
      ⟨-, heq⟩ | ⟨_, _, -, -, heq⟩ | ⟨name, store, -, -, heq⟩ <;>
      simp only [logsOf, next, heq]
    · simp
    · simp [tells_failureLine]
    -- Only here is a line told and an address added, and both are `y`'s.
    · have hadd : (m.extended.add y).contains x = (decide (x = y) || m.extended.contains x) := by
        rw [Bool.eq_iff_iff, AddressSet.add, Table.contains_insert]
        simp
      rw [hadd]
      by_cases hxy : x = y
      · subst hxy
        cases m.extended.contains x <;> simp [tells_extensionLine]
      · cases m.extended.contains y <;> simp [hxy, tells_extensionLine]

/-! ## From one call to many -/

/-- A run with one more call is this call after the run. -/
private theorem run_append_singleton (m : AllowManager MemoryStore) (calls : List Call) (c : Call) :
    m.run (calls ++ [c]) = (m.run calls).next c := by
  simp [run, List.foldl_append]

/-- If one call makes something true exactly when it is a cause of it, then it is true after some
calls exactly if it was true before them, or one of them was a cause. -/
theorem holds_run_iff {P : AllowManager MemoryStore → Prop}
    {Cause : AllowManager MemoryStore → Call → Prop}
    (hnext : ∀ m c, P (m.next c) ↔ P m ∨ Cause m c) (m : AllowManager MemoryStore)
    (calls : List Call) :
    P (m.run calls) ↔ P m ∨ ∃ before c, before ++ [c] <+: calls ∧ Cause (m.run before) c := by
  induction calls using List.reverseRecOn with
  | nil => simp [run]
  | append_singleton calls c ih =>
    rw [run_append_singleton, hnext, ih, or_assoc]
    refine or_congr_right ⟨?_, ?_⟩
    · rintro (⟨before, d, hd, hcause⟩ | hcause)
      · exact ⟨before, d, List.prefix_concat_iff.mpr (.inr hd), hcause⟩
      · exact ⟨calls, c, List.prefix_rfl, hcause⟩
    · rintro ⟨before, d, hd, hcause⟩
      rcases List.prefix_concat_iff.mp hd with heq | hd
      · -- The cause is the last call.
        obtain ⟨rfl, rfl⟩ : before = calls ∧ d = c := by simpa using heq
        exact .inr hcause
      · exact .inl ⟨before, d, hd, hcause⟩

/-- What has become true has become so by one of the calls. -/
theorem exists_first {P : AllowManager MemoryStore → Prop} (hm : ¬P m) {calls : List Call}
    (h : P (m.run calls)) :
    ∃ before c, before ++ [c] <+: calls ∧ ¬P (m.run before) ∧ P ((m.run before).next c) := by
  induction calls using List.reverseRecOn with
  | nil => exact absurd h hm
  | append_singleton calls c ih =>
    by_cases hbefore : P (m.run calls)
    · obtain ⟨before, d, hd, hnot, hnext⟩ := ih hbefore
      exact ⟨before, d, List.prefix_concat_iff.mpr (.inr hd), hnot, hnext⟩
    · rw [run_append_singleton] at h
      exact ⟨calls, c, List.prefix_rfl, hbefore, h⟩

/-- A key is there because it was, or because a call wrote it or let its address in. -/
theorem contains_run_iff (m : AllowManager MemoryStore) (calls : List Call) (x : Ipv4) :
    (m.run calls).store.entries.contains x.key = true ↔
      m.store.entries.contains x.key = true ∨ ∃ before c, before ++ [c] <+: calls ∧
        ((m.run before).Seeds x c ∨ (m.run before).LetsIn x c) :=
  holds_run_iff (P := fun m => m.store.entries.contains x.key = true)
    (fun m c => contains_next m c x) m calls

/-- Those count as let in whom some call has let in. -/
theorem extended_run_iff (hm : m.extended = .empty) (calls : List Call) (x : Ipv4) :
    (m.run calls).extended.contains x = true ↔
      ∃ before c, before ++ [c] <+: calls ∧ (m.run before).LetsIn x c := by
  rw [holds_run_iff (P := fun m => m.extended.contains x = true)
    (fun m c => extended_next m c x) m calls, hm]
  simp [Table.contains]

/-- No run changes the suffixes. -/
theorem suffixes_run (m : AllowManager MemoryStore) (calls : List Call) :
    (m.run calls).suffixes = m.suffixes := by
  induction calls using List.reverseRecOn with
  | nil => rfl
  | append_singleton calls c ih => rw [run_append_singleton, suffixes_next, ih]

/-- What every `put` keeps of the store is kept by every run. -/
theorem keeps_run {P : MemoryStore → Prop} (hput : ∀ {s t x}, s.put x = .ok t → P s → P t)
    (h : P m.store) (calls : List Call) : P (m.run calls).store := by
  induction calls using List.reverseRecOn with
  | nil => exact h
  | append_singleton calls c ih =>
    rw [run_append_singleton]
    exact keeps_next hput ih c

/-- An address has one line that it was let in because of a name if the run has added it to
`extended`, and no such line otherwise. -/
private theorem countP_tells_told (m : AllowManager MemoryStore) (calls : List Call) (x : Ipv4) :
    (m.told calls).countP (tells x) + (if m.extended.contains x then 1 else 0) =
      if (m.run calls).extended.contains x then 1 else 0 := by
  induction calls generalizing m with
  | nil => exact Nat.zero_add _
  | cons c calls ih =>
    have hstep := countP_tells_next m c x
    have hrest := ih (m.next c)
    rw [told, List.countP_append]
    change _ = if ((m.next c).run calls).extended.contains x then 1 else 0
    omega

/-! ## The account of a run -/

/-- The names of a call begin with some that do not match, and then comes one that does. -/
def FirstMatch (suffixes names : List String) (name : String) : Prop :=
  ∃ earlier later, names = earlier ++ name :: later ∧ Matches suffixes name ∧
    ∀ n ∈ earlier, ¬Matches suffixes n

/-- `matchingName` finds the first name in which one of the suffixes occurs. -/
private theorem matchingName_eq_some_iff {names : List String} {name : String} :
    m.matchingName names = some name ↔ FirstMatch m.suffixes names name := by
  simp only [matchingName, List.find?_eq_some_iff_append, allows_iff, FirstMatch, Matches,
    Bool.not_eq_true', ← Bool.not_eq_true]
  constructor
  · rintro ⟨hname, earlier, later, heq, hnot⟩
    exact ⟨earlier, later, heq, hname, hnot⟩
  · rintro ⟨earlier, later, heq, hname, hnot⟩
    exact ⟨hname, earlier, later, heq, hnot⟩

/-- An address is let in if one of its names matches and it can be written. -/
theorem allowed_observe_iff (m : AllowManager MemoryStore) (x : Ipv4) (names : List String) :
    (m.observe x names).allowed = true ↔
      (∃ name ∈ names, Matches m.suffixes name) ∧ ∃ t, m.store.put x = .ok t := by
  have hmatch : (m.matchingName names).isSome = true ↔ ∃ name ∈ names, Matches m.suffixes name := by
    simp only [matchingName, List.find?_isSome, allows_iff, Matches]
  rw [← hmatch]
  -- No name matches, one does and the write fails, or one does and `x` is let in.
  rcases m.observe_cases x names with
    ⟨hname, heq⟩ | ⟨name, e, hname, hput, heq⟩ | ⟨name, t, hname, hput, heq⟩
  · simp [hname, heq]
  · have hput' : m.store.put x = .error e := hput
    simp [hname, heq, hput']
  · have hput' : m.store.put x = .ok t := hput
    simp [hname, heq, hput']

/-- The first call that lets an address in tells it, with the first of its names that `Matches`. -/
private theorem told_first_of_extended (hempty : m.extended = .empty) {calls : List Call} {x : Ipv4}
    (hx : (m.run calls).extended.contains x = true) :
    ∃ before names name, before ++ [.observe x names] <+: calls ∧
      (∀ earlier c, earlier ++ [c] <+: before → ¬(m.run earlier).LetsIn x c) ∧
      FirstMatch m.suffixes names name ∧
      (m.run before).logsOf (.observe x names) = [extensionLine x name] := by
  have hnone : ¬m.extended.contains x = true := by simp [hempty, Table.contains]
  obtain ⟨before, c, hc, hnot, hin⟩ :=
    exists_first (P := fun m => m.extended.contains x = true) hnone hx
  -- Before this call nobody had let the address in, so this call did.
  have hcause := ((extended_next (m.run before) c x).mp hin).resolve_left hnot
  cases c with
  | seed xs => exact hcause.elim
  | observe y names =>
    obtain ⟨rfl, hallowed⟩ := hcause
    refine ⟨before, names, ?_⟩
    rcases (m.run before).observe_cases x names with
      ⟨-, heq⟩ | ⟨_, _, -, -, heq⟩ | ⟨name, _, hname, -, heq⟩
    · simp [heq] at hallowed
    · simp [heq] at hallowed
    · refine ⟨name, hc, fun earlier d hd hlets => hnot ?_, ?_, ?_⟩
      · exact (extended_run_iff hempty before x).mpr ⟨earlier, d, hd, hlets⟩
      · rw [← suffixes_run m before]
        exact matchingName_eq_some_iff.mp hname
      · simp only [logsOf, heq]
        exact if_neg hnot

/-- What `calls` have made of the manager `start`, and what they have told about it. -/
structure Account (start : AllowManager MemoryStore) (calls : List Call) : Prop where
  /-- An entry that is there after some of the calls is there after all of them. -/
  stays : ∀ before, before <+: calls → ∀ key v,
    (start.run before).store.entries.get? key = some v →
      (start.run calls).store.entries.get? key = some v
  /-- The keys are those of `start`, those that a call `Seeds`, perhaps before it fails, and those
  that a call `LetsIn`. -/
  present_iff : ∀ x, (start.run calls).store.entries.contains x.key = true ↔
    start.store.entries.contains x.key = true ∨
      ∃ before c, before ++ [c] <+: calls ∧
        ((start.run before).Seeds x c ∨ (start.run before).LetsIn x c)
  extended_iff : ∀ x, (start.run calls).extended.contains x = true ↔
    ∃ before c, before ++ [c] <+: calls ∧ (start.run before).LetsIn x c
  extended_present : ∀ x, (start.run calls).extended.contains x = true →
    (start.run calls).store.entries.get? x.key = some allowPresent
  /-- `observe` answers `allowed` exactly if a name `Matches` and `put` succeeds. -/
  allowed_iff : ∀ before x names, before ++ [.observe x names] <+: calls →
    (((start.run before).observe x names).allowed = true ↔
      (∃ name ∈ names, Matches start.suffixes name) ∧
        ∃ t, (start.run before).store.put x = .ok t)
  refused : ∀ before x names, before ++ [.observe x names] <+: calls →
    ((start.run before).observe x names).allowed = false →
      ((start.run before).observe x names).manager.store = (start.run before).store ∧
      ((start.run before).observe x names).manager.extended = (start.run before).extended
  told_once : ∀ x, (start.told calls).countP (tells x) =
    if (start.run calls).extended.contains x then 1 else 0
  /-- It is told by the first call that lets the address in, with the first name that matches. -/
  told_first : ∀ x, (start.run calls).extended.contains x = true →
    ∃ before names name, before ++ [.observe x names] <+: calls ∧
      (∀ earlier c, earlier ++ [c] <+: before → ¬(start.run earlier).LetsIn x c) ∧
      FirstMatch start.suffixes names name ∧
      (start.run before).logsOf (.observe x names) = [extensionLine x name]

/-- What any `calls` make of a manager with no `extended` addresses and a store that is `Marked`:
`Account` holds of it, whatever the capacity of the store and whichever addresses are `rejected`. -/
theorem run_grows_exactly (s : MemoryStore) (suffixes : List String) (calls : List Call)
    (hs : s.Marked) : Account ⟨s, suffixes, .empty⟩ calls := by
  generalize hstart : (⟨s, suffixes, .empty⟩ : AllowManager MemoryStore) = start
  have hempty : start.extended = .empty := by rw [← hstart]
  have hnone (x : Ipv4) : start.extended.contains x = false := by
    rw [hempty]
    rfl
  have hmarked (calls : List Call) : (start.run calls).store.Marked :=
    keeps_run (fun hput h => h.put hput) (by rwa [← hstart]) calls
  constructor
  case stays =>
    intro before hbefore key v hv
    -- The key is still there, and it can have but one value.
    obtain rfl := hmarked before key v hv
    refine (hmarked calls).get?_eq ?_
    have hkey : (start.run before).store.entries.contains key = true := by
      rw [Table.contains, hv]
      rfl
    rw [← Ipv4.key_ofKey key] at hkey ⊢
    rcases (contains_run_iff start before _).mp hkey with hold | ⟨earlier, c, hc, hcause⟩
    · exact (contains_run_iff start calls _).mpr (.inl hold)
    · exact (contains_run_iff start calls _).mpr
        (.inr ⟨earlier, c, hc.trans hbefore, hcause⟩)
  case present_iff => exact contains_run_iff start calls
  case extended_iff => exact extended_run_iff hempty calls
  case extended_present =>
    intro x hx
    obtain ⟨before, c, hc, hin⟩ := (extended_run_iff hempty calls x).mp hx
    exact (hmarked calls).get?_eq
      ((contains_run_iff start calls x).mpr (.inr ⟨before, c, hc, .inr hin⟩))
  case allowed_iff =>
    intro before x names _
    rw [allowed_observe_iff, suffixes_run]
  case refused =>
    intro before x names _ hrefused
    rcases (start.run before).observe_cases x names with
      ⟨-, heq⟩ | ⟨_, _, -, -, heq⟩ | ⟨_, _, -, -, heq⟩
    · simp [heq]
    · simp [heq]
    · simp [heq] at hrefused
  case told_once =>
    intro x
    have htold := countP_tells_told start calls x
    rwa [hnone, if_neg Bool.false_ne_true, Nat.add_zero] at htold
  case told_first => exact fun _ => told_first_of_extended hempty

/-- A manager whose store has room for one address more than it will be given, and in which one
address cannot be written. -/
def crowded : AllowManager MemoryStore where
  store :=
    { entries := Table.empty.insert (Ipv4.key ⟨10, 0, 0, 1⟩) allowPresent
      capacity := some 3
      rejected := [⟨9, 9, 9, 9⟩] }
  suffixes := [".github.com"]

/-- Two lists that are not written to their ends, and an address that is seen three times, the first
time by a name that does not match. -/
def mixedCalls : List Call :=
  [.seed [⟨8, 8, 8, 8⟩, ⟨9, 9, 9, 9⟩, ⟨7, 7, 7, 7⟩],
   .observe ⟨140, 82, 112, 3⟩ ["a.example"],
   .observe ⟨140, 82, 112, 3⟩ ["a.example", "lb.github.com.", "x.github.com."],
   .observe ⟨140, 82, 112, 3⟩ ["x.github.com."],
   .seed [⟨8, 8, 8, 8⟩, ⟨7, 7, 7, 7⟩]]

/-- Seeds and observations by turns: one address is let in because of its name and is told once, the
other one is turned down. -/
theorem run_grows_exactly_mixed :
    crowded.store.Marked ∧ Account crowded mixedCalls ∧
      (crowded.told mixedCalls).countP (tells ⟨140, 82, 112, 3⟩) = 1 ∧
      (crowded.told mixedCalls).countP (tells ⟨8, 8, 8, 8⟩) = 0 := by
  have hmarked : crowded.store.Marked := by
    intro key v hv
    rw [crowded, Table.get?_insert] at hv
    split at hv
    · exact (Option.some.inj hv).symm
    · simp at hv
  have haccount : Account crowded mixedCalls :=
    run_grows_exactly crowded.store crowded.suffixes mixedCalls hmarked
  refine ⟨hmarked, haccount, ?_, ?_⟩
  · rw [haccount.told_once, if_pos (by decide +kernel)]
  · rw [haccount.told_once, if_neg (by decide +kernel)]

end AllowManager

end EgressControl
