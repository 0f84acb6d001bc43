import EgressControl.Proofs.Allow.History
import Mathlib.Data.List.Nodup

/-!
# How many addresses are allowed, and why

An allow list that begins empty is seeded, and then addresses are looked at with their names.  What
is in it in the end are the seeds, and those that were let in without being seeds
(`size_run_of_seeds`).  A seed that is seen with a name that matches also counts as let in, so that
seeds and those let in may overlap (`size_run_ne_sum`).
-/

namespace EgressControl

namespace MemoryStore

/-- What is written is one of the addresses. -/
private theorem Writes.mem {s : MemoryStore} {xs : List Ipv4} {x : Ipv4} (h : s.Writes xs x) :
    x ∈ xs := by
  obtain ⟨before, t, hprefix, -⟩ := h
  exact hprefix.subset (by simp)

/-- What is written is not `rejected` by the store. -/
private theorem Writes.not_rejected {s : MemoryStore} {xs : List Ipv4} {x : Ipv4}
    (h : s.Writes xs x) :
    x ∉ s.rejected := by
  induction xs generalizing s with
  | nil => exact absurd h (writes_nil s x)
  | cons y ys ih =>
    obtain ⟨t, hput, rfl | hrest⟩ := writes_cons.mp h
    · exact fun hrej => (put_eq_ok_iff.mp hput).1 (.inl hrej)
    · rw [← rejected_of_put hput]
      exact ih hrest

/-- What is there already can be written again. -/
private theorem exists_put_of_contains {s : MemoryStore} {x : Ipv4} (hrej : x ∉ s.rejected)
    (hin : s.entries.contains x.key = true) : ∃ t, s.put x = .ok t := by
  refine ⟨_, put_eq_ok_iff.mpr ⟨?_, rfl⟩⟩
  rintro (hx | hroom)
  · exact hrej hx
  · simp [(hasRoom_eq_false_iff.mp hroom).1] at hin

end MemoryStore

namespace AllowManager

/-- The addresses that are to be written, each once. -/
def seedSet (seeds : List (List Ipv4)) : AddressSet := .addAll .empty seeds.flatten

/-- Lists of addresses are written, and then addresses are looked at with their names. -/
def seedThenObserve (seeds : List (List Ipv4)) (seen : List (Ipv4 × List String)) : List Call :=
  seeds.map .seed ++ seen.map fun o => .observe o.1 o.2

/-- Nothing fails that is to be written. -/
def SeedsSucceed (m : AllowManager MemoryStore) : List (List Ipv4) → Prop
  | [] => True
  | xs :: rest => (m.seed xs).failure = none ∧ (m.seed xs).manager.SeedsSucceed rest

instance decidableSeedsSucceed (m : AllowManager MemoryStore) :
    (seeds : List (List Ipv4)) → Decidable (m.SeedsSucceed seeds)
  | [] => isTrue trivial
  | xs :: rest =>
    have := decidableSeedsSucceed (m.seed xs).manager rest
    inferInstanceAs (Decidable (_ ∧ _))

variable {m : AllowManager MemoryStore} {x : Ipv4} {seeds : List (List Ipv4)}
  {seen : List (Ipv4 × List String)}

/-- `seedSet` holds the addresses of all lists of seeds. -/
private theorem contains_seedSet_iff :
    (seedSet seeds).contains x = true ↔ ∃ xs ∈ seeds, x ∈ xs := by
  rw [seedSet, AddressSet.contains_addAll, List.mem_flatten]
  simp [Table.contains]

/-- The seeds among the calls of `seedThenObserve` are the lists of seeds. -/
private theorem seed_mem_calls_iff {xs : List Ipv4} :
    .seed xs ∈ seedThenObserve seeds seen ↔ xs ∈ seeds := by
  simp [seedThenObserve]

/-- The observations among the calls of `seedThenObserve` are what has been seen. -/
private theorem observe_mem_calls_iff {names : List String} :
    .observe x names ∈ seedThenObserve seeds seen ↔ (x, names) ∈ seen := by
  simp [seedThenObserve]

/-- If all seeds succeed, so does each of them after those before it. -/
private theorem SeedsSucceed.failure {before later : List (List Ipv4)} {xs : List Ipv4}
    (h : m.SeedsSucceed (before ++ xs :: later)) :
    ((m.run (before.map .seed)).seed xs).failure = none := by
  induction before generalizing m with
  | nil => exact h.1
  | cons ys before ih => exact ih h.2

/-- If nothing fails, all is written. -/
private theorem writes_of_mem {xs : List Ipv4} (h : (m.seed xs).failure = none) (hx : x ∈ xs) :
    m.store.Writes xs x := by
  rw [failure_seed] at h
  induction xs generalizing m with
  | nil => simp at hx
  | cons y ys ih =>
    -- The seeding went through, so each write did.
    cases hput : AllowStore.put m.store y with
    | error e => simp [seedEach, hput] at h
    | ok store =>
      simp only [seedEach, hput] at h
      refine MemoryStore.writes_cons.mpr ⟨store, hput, ?_⟩
      rcases List.mem_cons.mp hx with rfl | hx
      · exact .inl rfl
      · exact .inr (ih (m := { m with store }) h hx)

/-- No run changes which addresses the store rejects. -/
private theorem rejected_run (m : AllowManager MemoryStore) (calls : List Call) :
    (m.run calls).store.rejected = m.store.rejected :=
  keeps_run (P := fun s => s.rejected = m.store.rejected)
    (fun hput h => (MemoryStore.rejected_of_put hput).trans h) rfl calls

section

variable (hempty : m.store.entries = .empty) (hextended : m.extended = .empty)
  (hseeds : m.SeedsSucceed seeds)
include hseeds

/-- A seed is written by the first call that it is given to. -/
private theorem exists_seeds_iff (seen : List (Ipv4 × List String)) :
    (∃ before c, before ++ [c] <+: seedThenObserve seeds seen ∧ (m.run before).Seeds x c) ↔
      (seedSet seeds).contains x = true := by
  rw [contains_seedSet_iff]
  constructor
  · rintro ⟨before, c, hc, hwrites⟩
    cases c with
    | seed xs => exact ⟨xs, seed_mem_calls_iff.mp (hc.subset (by simp)), hwrites.mem⟩
    | observe y names => exact hwrites.elim
  · rintro ⟨xs, hxs, hx⟩
    -- The batch that holds `x` is reached after the batches before it.
    obtain ⟨before, later, rfl⟩ := List.append_of_mem hxs
    refine ⟨before.map .seed, .seed xs, ?_, writes_of_mem hseeds.failure hx⟩
    exact ⟨later.map .seed ++ seen.map fun o => .observe o.1 o.2, by simp [seedThenObserve]⟩

include hempty hextended

/-- If all seeds succeed, the store holds the seeds and what was let in because of a name, and
nothing else. -/
private theorem contains_store_iff (seen : List (Ipv4 × List String)) :
    (m.run (seedThenObserve seeds seen)).store.entries.contains x.key = true ↔
      (seedSet seeds).contains x = true ∨
        (m.run (seedThenObserve seeds seen)).extended.contains x = true := by
  rw [contains_run_iff, extended_run_iff hextended, ← exists_seeds_iff hseeds seen, hempty]
  simp only [and_or_left, exists_or, Table.contains, Table.get?_empty, Option.isSome_none,
    Bool.false_eq_true, false_or]

/-- In the store are the seeds and those that were let in without being seeds. -/
private theorem size_store (seen : List (Ipv4 × List String)) :
    let m' := m.run (seedThenObserve seeds seen)
    m'.store.entries.size = (seedSet seeds).size +
      (m'.extended.keys.filter fun x => !(seedSet seeds).contains x).length := by
  intro m'
  -- The keys of the map are those of the seeds and those added beside them, each once.
  have hkeys : m'.store.entries.keys.Perm (((seedSet seeds).keys ++
      m'.extended.keys.filter fun x => !(seedSet seeds).contains x).map Ipv4.key) := by
    refine (List.perm_ext_iff_of_nodup (Table.nodup_keys _) ?_).mpr fun key => ?_
    · refine List.Nodup.map (fun _ _ => Ipv4.key_inj.mp) ?_
      refine (Table.nodup_keys _).append ((Table.nodup_keys _).filter _) fun x hx hx' => ?_
      rw [← Table.contains_iff] at hx
      simp [hx] at hx'
    · obtain ⟨x, rfl⟩ : ∃ x : Ipv4, x.key = key := ⟨_, Ipv4.key_ofKey key⟩
      rw [← Table.contains_iff, contains_store_iff hempty hextended hseeds seen]
      simp only [List.mem_map, Ipv4.key_inj, exists_eq_right, List.mem_append, List.mem_filter,
        ← Table.contains_iff]
      by_cases hx : (seedSet seeds).contains x = true <;> simp [hx, m']
  have hlength := hkeys.length_eq
  simpa [Table.keys, Table.size] using hlength

/-- A seed counts as let in exactly if it is seen with a name that matches. -/
private theorem seed_extended_iff (hx : (seedSet seeds).contains x = true) :
    (m.run (seedThenObserve seeds seen)).extended.contains x = true ↔
      ∃ names, (x, names) ∈ seen ∧ ∃ name ∈ names, Matches m.suffixes name := by
  rw [extended_run_iff hextended]
  constructor
  · rintro ⟨before, c, hc, hlets⟩
    cases c with
    | seed xs => exact hlets.elim
    | observe y names =>
      obtain ⟨rfl, hallowed⟩ := hlets
      refine ⟨names, observe_mem_calls_iff.mp (hc.subset (by simp)), ?_⟩
      rw [allowed_observe_iff, suffixes_run] at hallowed
      exact hallowed.1
  · rintro ⟨names, hmem, hmatch⟩
    obtain ⟨earlier, later, hseen⟩ := List.append_of_mem hmem
    -- The address is looked at after all seeds have been written.
    refine ⟨seedThenObserve seeds earlier, .observe x names, ⟨later.map fun o => .observe o.1 o.2,
      by simp [seedThenObserve, hseen]⟩, rfl, ?_⟩
    have hin := (contains_store_iff hempty hextended hseeds earlier).mpr (.inl hx)
    have hrej : x ∉ (m.run (seedThenObserve seeds earlier)).store.rejected := by
      obtain ⟨before, c, -, hwrites⟩ := (exists_seeds_iff hseeds seen).mpr hx
      cases c with
      | seed xs =>
        rw [rejected_run, ← rejected_run m before]
        exact hwrites.not_rejected
      | observe y names => exact hwrites.elim
    rw [allowed_observe_iff, suffixes_run]
    exact ⟨hmatch, MemoryStore.exists_put_of_contains hrej hin⟩

end

/-- If all `seeds` go through on an empty list (`SeedsSucceed`), its `entries` are the seeds and
the `extended` addresses that are no seeds.  So its size is that of `seedSet` and `extendedCount`
together exactly if no seed is seen with a name that `Matches`. -/
theorem size_run_of_seeds (capacity : Option Nat) (rejected : List Ipv4) (suffixes : List String)
    (seeds : List (List Ipv4)) (seen : List (Ipv4 × List String))
    (hseeds : SeedsSucceed ⟨{ capacity, rejected }, suffixes, .empty⟩ seeds) :
    let m := run ⟨{ capacity, rejected }, suffixes, .empty⟩ (seedThenObserve seeds seen)
    m.store.entries.size = (seedSet seeds).size +
        (m.extended.keys.filter fun x => !(seedSet seeds).contains x).length ∧
      (m.store.entries.size = (seedSet seeds).size + m.extendedCount ↔
        ∀ x names, (x, names) ∈ seen → (∃ xs ∈ seeds, x ∈ xs) →
          ¬∃ name ∈ names, Matches suffixes name) := by
  intro m
  have hsize := size_store rfl rfl hseeds seen
  refine ⟨hsize, ?_⟩
  -- The two sizes differ by the extended addresses that are seeds as well.
  have hcount : m.extendedCount = m.extended.keys.length := by simp [extendedCount, Table.size,
    Table.keys]
  rw [hsize, hcount, Nat.add_left_cancel_iff, List.length_filter_eq_length_iff]
  constructor
  · intro hnone x names hmem hseed hmatch
    have hx := contains_seedSet_iff.mpr hseed
    have hin := (seed_extended_iff rfl rfl hseeds hx).mpr ⟨names, hmem, hmatch⟩
    simpa [hx] using hnone x (Table.contains_iff.mp hin)
  · intro hnone x hx
    by_contra hseed
    rw [Bool.not_eq_true', Bool.not_eq_false] at hseed
    obtain ⟨names, hmem, hmatch⟩ :=
      (seed_extended_iff rfl rfl hseeds hseed).mp (Table.contains_iff.mpr hx)
    exact hnone x names hmem (contains_seedSet_iff.mp hseed) hmatch

/-- Two seeds, one of them written twice, of which one is seen; so are two other addresses, of which
one has no name that matches. -/
theorem size_run_of_seeds_overlap :
    let start : AllowManager MemoryStore := ⟨{ capacity := some 3 }, [".github.com"], .empty⟩
    let seeds : List (List Ipv4) := [[⟨127, 0, 0, 1⟩, ⟨140, 82, 112, 3⟩], [⟨127, 0, 0, 1⟩]]
    let seen : List (Ipv4 × List String) :=
      [(⟨140, 82, 112, 3⟩, ["lb.github.com."]), (⟨140, 82, 112, 4⟩, [".", "lb.github.com."]),
       (⟨93, 184, 216, 34⟩, ["example.com."])]
    start.SeedsSucceed seeds ∧
      (start.run (seedThenObserve seeds seen)).store.entries.size = 2 + 1 := by
  intro start seeds seen
  have hseeds : start.SeedsSucceed seeds := by decide +kernel
  have hsize := (size_run_of_seeds (some 3) [] [".github.com"] seeds seen hseeds).1
  refine ⟨hseeds, ?_⟩
  rw [hsize]
  decide +kernel

/-- A seed is seen with a name that matches: there is one address, which counts as a seed and as let
in. -/
theorem size_run_ne_sum :
    let start : AllowManager MemoryStore := ⟨{}, [".github.com"], .empty⟩
    let seeds : List (List Ipv4) := [[⟨140, 82, 112, 3⟩]]
    let m := start.run (seedThenObserve seeds [(⟨140, 82, 112, 3⟩, ["lb.github.com."])])
    (start.seed [⟨140, 82, 112, 3⟩]).failure = none ∧
      m.store.entries.size ≠ (seedSet seeds).size + m.extendedCount := by
  decide +kernel

end AllowManager

end EgressControl
