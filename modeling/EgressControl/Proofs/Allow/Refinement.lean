import EgressControl.Proofs.Allow.Kernel
import EgressControl.Proofs.Allow.Observe
import EgressControl.Proofs.Allow.Store

/-!
# The list in the kernel answers like the one in memory

A manager does not see which store it fills.  If two stores accept and turn down the same addresses
and find the same marks (`AllowStore.Simulation`), then two managers of them give the same replies
to all requests, and go on doing so (`Twin.ask`, `Twin.replies`).

The kernel's map of allowed addresses and a store in memory with as much room are such stores, as
long as the kernel refuses no call (`AllowMap.simulation_memory`).  `replies_kernel_eq_memory` is
the result for any requests; it also says that the kernel lists exactly the addresses that are found
(`AllowMap.mem_addresses_iff`).
-/

namespace EgressControl

/-- Related stores take the same addresses and find the same marks, and stay related.  Failures are
told apart from successes only. -/
structure AllowStore.Simulation {σ τ : Type} [AllowStore σ] [AllowStore τ] (R : σ → τ → Prop) :
    Prop where
  put_ok : ∀ {s t x s'}, R s t → AllowStore.put s x = .ok s' →
    ∃ t', AllowStore.put t x = .ok t' ∧ R s' t'
  put_error : ∀ {s t x e}, R s t → AllowStore.put s x = .error e →
    ∃ e', AllowStore.put t x = .error e'
  lookup : ∀ {s t x}, R s t →
    (AllowStore.lookup s x).toOption = (AllowStore.lookup t x).toOption

namespace AllowManager

/-! ## Requests and replies -/

/-- What is asked of a manager and its store. -/
inductive Request where
  | seed (xs : List Ipv4)
  | observe (x : Ipv4) (names : List String)
  | lookup (x : Ipv4)

/-- What a request is answered with.  A failure is `none`, whatever has gone wrong. -/
inductive Reply where
  | seeded (count : Option Nat)
  | observed (allowed : Bool)
  | found (mark : Option (Option UInt32))
  deriving DecidableEq

section

variable {σ : Type} [AllowStore σ]

/-- The reply to a request, and the manager afterwards. -/
def ask (m : AllowManager σ) : Request → Reply × AllowManager σ
  | .seed xs => (.seeded (m.seed xs).result.toOption, (m.seed xs).manager)
  | .observe x names => (.observed (m.observe x names).allowed, (m.observe x names).manager)
  | .lookup x => (.found (AllowStore.lookup m.store x).toOption, m)

/-- The manager after some requests. -/
def asked (m : AllowManager σ) (requests : List Request) : AllowManager σ :=
  requests.foldl (fun m q => (m.ask q).2) m

/-- The replies to some requests. -/
def replies (m : AllowManager σ) : List Request → List Reply
  | [] => []
  | q :: rest => (m.ask q).1 :: (m.ask q).2.replies rest

end

/-- A seeding that has not failed gives its count. -/
private theorem toOption_result {σ : Type} (s : Seeding σ) :
    s.result.toOption = if s.failure.isSome then none else some s.count := by
  unfold Seeding.result
  split <;> simp_all [Except.toOption]

/-! ## Managers of related stores -/

variable {σ τ : Type} [AllowStore σ] [AllowStore τ] {R : σ → τ → Prop}

/-- Two managers differ in their stores only, and these are related. -/
structure Twin (R : σ → τ → Prop) (m : AllowManager σ) (n : AllowManager τ) : Prop where
  store : R m.store n.store
  suffixes : m.suffixes = n.suffixes
  extended : m.extended = n.extended

namespace Twin

variable {m : AllowManager σ} {n : AllowManager τ}

/-- Related stores are written up to the same address. -/
private theorem seedEach (hR : AllowStore.Simulation R) (h : Twin R m n) (xs : List Ipv4) :
    Twin R (m.seedEach xs).manager (n.seedEach xs).manager ∧
      (m.seedEach xs).count = (n.seedEach xs).count ∧
      (m.seedEach xs).failure.isSome = (n.seedEach xs).failure.isSome := by
  induction xs generalizing m n with
  | nil => exact ⟨h, rfl, rfl⟩
  | cons x xs ih =>
    -- Both stores take the address, or both turn it down and nothing more is written.
    cases hput : AllowStore.put m.store x with
    | error e =>
      obtain ⟨e', hput'⟩ := hR.put_error h.store hput
      simp [AllowManager.seedEach, hput, hput', h]
    | ok s =>
      obtain ⟨t, hput', hst⟩ := hR.put_ok h.store hput
      obtain ⟨htwin, hcount, hfailure⟩ :=
        ih (m := { m with store := s }) (n := { n with store := t }) ⟨hst, h.suffixes, h.extended⟩
      simp only [AllowManager.seedEach, hput, hput']
      exact ⟨htwin, by rw [hcount], hfailure⟩

/-- Twins write the same seeds with the same result, and stay twins. -/
private theorem seed (hR : AllowStore.Simulation R) (h : Twin R m n) (xs : List Ipv4) :
    Twin R (m.seed xs).manager (n.seed xs).manager ∧
      (m.seed xs).result.toOption = (n.seed xs).result.toOption := by
  obtain ⟨htwin, hcount, hfailure⟩ := h.seedEach hR xs
  rw [manager_seed, manager_seed, toOption_result, toOption_result, failure_seed, failure_seed,
    count_seed, count_seed, hcount, hfailure]
  exact ⟨htwin, rfl⟩

/-- Twins let in the same address or both turn it down, and stay twins. -/
private theorem observe (hR : AllowStore.Simulation R) (h : Twin R m n) (x : Ipv4)
    (names : List String) :
    Twin R (m.observe x names).manager (n.observe x names).manager ∧
      (m.observe x names).allowed = (n.observe x names).allowed := by
  -- The name is looked for without the store.
  have hname : m.matchingName names = n.matchingName names := by
    have hallows : m.allows = n.allows := by
      funext name
      rw [allows, allows, h.suffixes]
    rw [matchingName, matchingName, hallows]
  unfold AllowManager.observe
  rw [hname]
  cases n.matchingName names with
  | none => exact ⟨h, rfl⟩
  | some name =>
    cases hput : AllowStore.put m.store x with
    | error e =>
      obtain ⟨e', hput'⟩ := hR.put_error h.store hput
      rw [hput']
      exact ⟨h, rfl⟩
    | ok s =>
      obtain ⟨t, hput', hst⟩ := hR.put_ok h.store hput
      rw [hput']
      exact ⟨⟨hst, h.suffixes, congrArg (·.add x) h.extended⟩, rfl⟩

/-- A request is answered alike, and the managers stay twins. -/
theorem ask (hR : AllowStore.Simulation R) (h : Twin R m n) (q : Request) :
    Twin R (m.ask q).2 (n.ask q).2 ∧ (m.ask q).1 = (n.ask q).1 := by
  cases q with
  | seed xs => exact ⟨(h.seed hR xs).1, congrArg Reply.seeded (h.seed hR xs).2⟩
  | observe x names =>
    exact ⟨(h.observe hR x names).1, congrArg Reply.observed (h.observe hR x names).2⟩
  | lookup x => exact ⟨h, congrArg Reply.found (hR.lookup h.store)⟩

/-- So are any requests, one after the other. -/
theorem replies (hR : AllowStore.Simulation R) (h : Twin R m n) (requests : List Request) :
    Twin R (m.asked requests) (n.asked requests) ∧ m.replies requests = n.replies requests := by
  induction requests generalizing m n with
  | nil => exact ⟨h, rfl⟩
  | cons q rest ih =>
    obtain ⟨hnext, hreply⟩ := h.ask hR q
    obtain ⟨hlast, hrest⟩ := ih hnext
    exact ⟨hlast, by rw [AllowManager.replies, AllowManager.replies, hreply, hrest]⟩

end Twin

end AllowManager

/-! ## The two stores -/

namespace AllowMap

/-- A map in a kernel that refuses no call, and a store in memory with the same entries and as much
room, in which every address can be written. -/
structure Mirrored (k : AllowMap) (s : MemoryStore) : Prop where
  faults : k.map.faults = {}
  entries : k.map.entries = s.entries
  capacity : s.capacity = some k.map.spec.maxEntries
  rejected : s.rejected = []

/-- A kernel that refuses no call writes what there is room for. -/
private theorem update_of_no_faults {m : KernelMap} (h : m.faults = {}) (key value : UInt32) :
    m.update key value =
      if m.entries.contains key || m.entries.size < m.spec.maxEntries then .ok (m.put key value)
      else .error .tooBig := by
  have hroom : m.hasRoom key =
      (m.entries.contains key || decide (m.entries.size < m.spec.maxEntries)) := by
    simp [KernelMap.hasRoom, h]
  -- Without victims no map gives anything up, whatever its kind.
  have hevict : m.evict? key = none := by
    unfold KernelMap.evict?
    split
    · next hvictims => simp [h] at hvictims
    · rfl
  have hfits : m.roomFor? key =
      if m.entries.contains key || m.entries.size < m.spec.maxEntries then some m else none := by
    rw [KernelMap.roomFor?, hroom, hevict]
  have hfaults : (m.faults.update || m.faults.rejected.contains key) = false := by simp [h]
  rw [KernelMap.update, hfaults, if_neg Bool.false_ne_true, hfits]
  by_cases hfree : (m.entries.contains key || decide (m.entries.size < m.spec.maxEntries)) = true
  · simp only [if_pos hfree]
  · simp only [if_neg hfree]

/-- `put` writes the mark of an address, as long as there is room for its key. -/
private theorem put_of_no_faults {k : AllowMap} (h : k.map.faults = {}) (x : Ipv4) :
    k.put x =
      if k.map.entries.contains x.key || k.map.entries.size < k.map.spec.maxEntries then
        .ok ⟨{ k.map with entries := k.map.entries.insert x.key allowPresent }⟩
      else .error (KernelMap.updateError .tooBig) := by
  simp only [put, KernelMap.insert, update_of_no_faults h]
  by_cases hroom : (k.map.entries.contains x.key ||
      decide (k.map.entries.size < k.map.spec.maxEntries)) = true
  · simp only [if_pos hroom]
    rfl
  · simp only [if_neg hroom]

/-- A kernel that refuses no call finds the entry under the key of the address. -/
private theorem lookup_of_no_faults {k : AllowMap} (h : k.map.faults = {}) (x : Ipv4) :
    k.lookup x = .ok (k.map.entries.get? x.key) := by
  simp [lookup, KernelMap.lookup, h]

namespace Mirrored

variable {k : AllowMap} {s : MemoryStore}

/-- The store in memory has room for a key exactly if the map in the kernel has. -/
private theorem hasRoom (h : Mirrored k s) (key : UInt32) :
    s.hasRoom key =
      (k.map.entries.contains key || decide (k.map.entries.size < k.map.spec.maxEntries)) := by
  simp [MemoryStore.hasRoom, h.entries, h.capacity]

/-- Nothing is rejected, so that `put` fails only if there is no room. -/
private theorem put_memory (h : Mirrored k s) (x : Ipv4) :
    s.put x =
      if s.hasRoom x.key then .ok { s with entries := s.entries.insert x.key allowPresent }
      else .error (.outOfBounds x.key.toNat (s.capacity.getD 0)) := by
  simp [MemoryStore.put, h.rejected]

/-- Nothing is rejected, so that every address can be looked up. -/
private theorem lookup_memory (h : Mirrored k s) (x : Ipv4) :
    s.lookup x = .ok (s.entries.get? x.key) := by
  simp [MemoryStore.lookup, h.rejected]

/-- The same entry is written into both. -/
private theorem insert (h : Mirrored k s) (key value : UInt32) :
    Mirrored ⟨{ k.map with entries := k.map.entries.insert key value }⟩
      { s with entries := s.entries.insert key value } :=
  ⟨h.faults, congrArg (·.insert key value) h.entries, h.capacity, h.rejected⟩

end Mirrored

/-- Such stores take the same addresses and find the same marks. -/
theorem simulation_memory : AllowStore.Simulation Mirrored where
  put_ok := by
    intro k s x k' h hput
    -- Both ask whether there is room for the key, and the entry is the same.
    have hkernel : k.put x = .ok k' := hput
    rw [put_of_no_faults h.faults, ← h.hasRoom] at hkernel
    split at hkernel
    · next hroom =>
      obtain rfl := Except.ok.inj hkernel
      have hmemory := h.put_memory x
      rw [if_pos hroom] at hmemory
      exact ⟨_, hmemory, h.insert x.key allowPresent⟩
    · simp at hkernel
  put_error := by
    intro k s x e h hput
    have hkernel : k.put x = .error e := hput
    rw [put_of_no_faults h.faults, ← h.hasRoom] at hkernel
    split at hkernel
    · simp at hkernel
    · next hroom =>
      have hmemory := h.put_memory x
      rw [if_neg hroom] at hmemory
      exact ⟨_, hmemory⟩
  lookup := by
    intro k s x h
    show (k.lookup x).toOption = (s.lookup x).toOption
    rw [lookup_of_no_faults h.faults, h.lookup_memory, h.entries]

/-! ## What the kernel lists -/

/-- The kernel lists the addresses that are found, and no other. -/
theorem mem_addresses_iff {k : AllowMap} (h : k.map.faults = {}) {x : Ipv4} :
    x ∈ k.addresses ↔ ∃ v, k.lookup x = .ok (some v) := by
  -- A key is that of one address only, so that no other key can bring `x` into the list.
  have hkeys : x ∈ k.addresses ↔ x.key ∈ k.map.entries.keys := by
    simp only [addresses, KernelMap.keys, h, Bool.false_eq_true, if_false, List.mem_map]
    constructor
    · rintro ⟨key, hkey, rfl⟩
      rwa [Ipv4.key_ofKey]
    · exact fun hkey => ⟨x.key, hkey, Ipv4.ofKey_key x⟩
  rw [hkeys, ← Table.contains_iff, Table.contains, Option.isSome_iff_exists,
    lookup_of_no_faults h]
  simp only [Except.ok.injEq]

/-- No address is listed twice: two keys are never those of one address. -/
private theorem nodup_addresses (k : AllowMap) : k.addresses.Nodup := by
  have hkeys : k.map.keys.Nodup := by
    unfold KernelMap.keys
    split
    · exact .nil
    · exact k.map.entries.nodup_keys
  refine List.pairwise_map.mpr (hkeys.imp ?_)
  intro key key' hne heq
  exact hne (by rw [← Ipv4.key_ofKey key, heq, Ipv4.key_ofKey])

end AllowMap

namespace AllowManager

/-- Without `faults` in the kernel's map, `requests` get the `replies` of a manager over a
`MemoryStore` with the same entries and `capacity`.  After every part of them both have the same
`extended` addresses and the same entries, and `addresses` lists each address that `lookup` finds
once, and no other. -/
theorem replies_kernel_eq_memory (k : AllowMap) (suffixes : List String) (extended : AddressSet)
    (requests : List Request) (h : k.map.faults = {}) :
    let kernel : AllowManager AllowMap := ⟨k, suffixes, extended⟩
    let memory : AllowManager MemoryStore :=
      ⟨{ entries := k.map.entries, capacity := some k.map.spec.maxEntries }, suffixes, extended⟩
    kernel.replies requests = memory.replies requests ∧
      ∀ past, past <+: requests →
        (kernel.asked past).extended = (memory.asked past).extended ∧
        (kernel.asked past).store.map.entries = (memory.asked past).store.entries ∧
        (kernel.asked past).store.addresses.Nodup ∧
        ∀ x, x ∈ (kernel.asked past).store.addresses ↔
          ∃ v, (kernel.asked past).store.lookup x = .ok (some v) := by
  intro kernel memory
  -- The two managers are twins at the start, and every request keeps them so.
  have htwin : Twin AllowMap.Mirrored kernel memory := ⟨⟨h, rfl, rfl, rfl⟩, rfl, rfl⟩
  refine ⟨(htwin.replies AllowMap.simulation_memory requests).2, fun past _ => ?_⟩
  have hpast := (htwin.replies AllowMap.simulation_memory past).1
  exact ⟨hpast.extended, hpast.store.entries, AllowMap.nodup_addresses _,
    fun _ => AllowMap.mem_addresses_iff hpast.store.faults⟩

/-- A map with room for two addresses, one of which is there.  One address is added because of its
name and another finds no room; writing what is there already goes well, and then the next address
ends the writing. -/
theorem replies_kernel_full :
    let spec : MapSpec := ⟨"allow_map", .hash, 4, 4, 2⟩
    let k : AllowMap := ⟨{ spec, entries := Table.empty.insert (Ipv4.key ⟨10, 0, 0, 1⟩) 1 }⟩
    let kernel : AllowManager AllowMap := ⟨k, [".github.com"], .empty⟩
    let requests : List Request :=
      [.observe ⟨140, 82, 112, 4⟩ ["lb.github.com"], .observe ⟨140, 82, 112, 5⟩ ["api.github.com"],
        .lookup ⟨140, 82, 112, 5⟩, .seed [⟨140, 82, 112, 4⟩], .seed [⟨10, 0, 0, 1⟩, ⟨1, 1, 1, 1⟩]]
    kernel.replies requests =
        [.observed true, .observed false, .found (some none), .seeded (some 1), .seeded none] ∧
      (kernel.asked requests).store.map.entries.keys =
        [Ipv4.key ⟨10, 0, 0, 1⟩, Ipv4.key ⟨140, 82, 112, 4⟩] := by
  intro spec k kernel requests
  obtain ⟨hreplies, hpast⟩ := replies_kernel_eq_memory k [".github.com"] .empty requests rfl
  obtain ⟨-, hentries, -⟩ := hpast requests (List.prefix_refl _)
  refine ⟨hreplies.trans (by decide +kernel), ?_⟩
  rw [hentries]
  decide +kernel

end AllowManager

end EgressControl
