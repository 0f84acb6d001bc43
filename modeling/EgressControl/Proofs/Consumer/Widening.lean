import EgressControl.Proofs.Allow.Observe
import EgressControl.Proofs.Allow.Store
import EgressControl.Proofs.Record.Destination

/-!
# How a run widens the allow list

Every address that a run lets in stood in a record and has an allowed name, and every address of a
record with an allowed name is let in, unless the store turns it down.  `Widened` is the invariant
that carries this through a run: `Widened.observe` says that an observation keeps it, and
`Widened.foldl_add` that any number of connections does.

`run_widens_exactly` is the result for a run, in terms of the bytes of the samples.
-/

namespace EgressControl

/-- How the allow list `m` has come to be `n` by connections being taken in. -/
structure Widened (r : Resolver) (m : AllowManager MemoryStore) (cs : List Connection)
    (n : AllowManager MemoryStore) : Prop where
  suffixes : n.suffixes = m.suffixes
  capacity : n.store.capacity = m.store.capacity
  rejected : n.store.rejected = m.store.rejected
  /-- Every entry is a mark. -/
  marked : ∀ key v, n.store.entries.get? key = some v → v = allowPresent
  /-- Nothing has been taken out. -/
  kept : ∀ key, m.store.entries.contains key = true → n.store.entries.contains key = true
  /-- Nothing has been let in without a connection that calls for it. -/
  justified : ∀ key, n.store.entries.contains key = true → m.store.entries.contains key = false →
    ∃ c ∈ cs, c.destination.key = key ∧ r.Permits m.suffixes c.destination
  /-- Nothing that a connection calls for has been left out, but what is turned down. -/
  complete : ∀ c ∈ cs, r.Permits m.suffixes c.destination →
    n.store.entries.contains c.destination.key = true ∨ n.store.Refuses c.destination

namespace Widened

variable {r : Resolver} {m n : AllowManager MemoryStore} {cs : List Connection}

/-- Before the first connection. -/
private theorem refl (r : Resolver) {m : AllowManager MemoryStore}
    (hmarks : ∀ key v, m.store.entries.get? key = some v → v = allowPresent) :
    Widened r m [] m where
  suffixes := rfl
  capacity := rfl
  rejected := rfl
  marked := hmarks
  kept := fun _ h => h
  justified := fun key h hnot => absurd h (by simp [hnot])
  complete := by simp

/-- A connection that changes nothing may be counted in, if there is nothing to do for it. -/
private theorem concat_of_done (h : Widened r m cs n) {c : Connection}
    (hc : r.Permits m.suffixes c.destination →
      n.store.entries.contains c.destination.key = true ∨ n.store.Refuses c.destination) :
    Widened r m (cs ++ [c]) n where
  suffixes := h.suffixes
  capacity := h.capacity
  rejected := h.rejected
  marked := h.marked
  kept := h.kept
  justified := by
    intro key hn hm
    obtain ⟨d, hd, hkey, hpermits⟩ := h.justified key hn hm
    exact ⟨d, List.mem_append_left _ hd, hkey, hpermits⟩
  complete := by
    intro d hd hpermits
    rcases List.mem_append.mp hd with hold | hnew
    · exact h.complete d hold hpermits
    · rw [List.mem_singleton.mp hnew] at hpermits ⊢
      exact hc hpermits

/-- An address that is written is one that a connection calls for. -/
private theorem concat_of_put (h : Widened r m cs n) {c : Connection} {store : MemoryStore}
    (hput : n.store.put c.destination = .ok store) (hpermits : r.Permits m.suffixes c.destination) :
    Widened r m (cs ++ [c]) { n with store, extended := n.extended.add c.destination } where
  suffixes := h.suffixes
  capacity := (MemoryStore.capacity_of_put hput).trans h.capacity
  rejected := (MemoryStore.rejected_of_put hput).trans h.rejected
  marked := by
    intro key v hv
    rw [MemoryStore.get?_of_put hput] at hv
    split at hv
    · exact (Option.some.inj hv).symm
    · exact h.marked key v hv
  kept := fun key hm => (MemoryStore.contains_of_put hput).mpr (.inr (h.kept key hm))
  justified := by
    intro key hn hm
    rcases (MemoryStore.contains_of_put hput).mp hn with hkey | hold
    · exact ⟨c, by simp, hkey.symm, hpermits⟩
    · obtain ⟨d, hd, hkey, hd'⟩ := h.justified key hold hm
      exact ⟨d, List.mem_append_left _ hd, hkey, hd'⟩
  complete := by
    intro d hd hd'
    rcases List.mem_append.mp hd with hold | hnew
    · -- What was there stays there, and what was turned down still is.
      rcases h.complete d hold hd' with hin | hrefused
      · exact .inl ((MemoryStore.contains_of_put hput).mpr (.inr hin))
      · exact .inr (MemoryStore.refuses_of_put hput hrefused)
    · rw [List.mem_singleton.mp hnew]
      exact .inl ((MemoryStore.contains_of_put hput).mpr (.inl rfl))

/-- One observation keeps the invariant. -/
theorem observe (h : Widened r m cs n) (c : Connection) :
    Widened r m (cs ++ [c]) (n.observe c.destination (r.namesOf c.destination)).manager := by
  have hiff := AllowManager.isSome_matchingName_iff (m := n) (r := r) (x := c.destination)
  rw [h.suffixes] at hiff
  rcases n.observe_cases c.destination (r.namesOf c.destination) with
    ⟨hname, heq⟩ | ⟨name, e, hname, hput, heq⟩ | ⟨name, store, hname, hput, heq⟩
  · -- No name matches, so that there is nothing to do for the connection.
    rw [heq]
    refine h.concat_of_done fun hpermits => ?_
    have := hiff.mpr hpermits
    simp [hname] at this
  · rw [heq]
    exact h.concat_of_done fun _ => .inr (MemoryStore.refuses_of_put_error hput)
  · rw [heq]
    exact h.concat_of_put hput (hiff.mp (by simp [hname]))

/-- Any number of connections keeps the invariant. -/
theorem foldl_add {f : Findings MemoryStore} (h : Widened r m cs f.allow) (ds : List Connection) :
    Widened r m (cs ++ ds) (ds.foldl (Findings.add r) f).allow := by
  induction ds generalizing cs f with
  | nil => rwa [List.append_nil]
  | cons d ds ih =>
    have hstep : Widened r m (cs ++ [d]) (f.add r d).allow := h.observe d
    have hrest := ih hstep
    rwa [List.append_assoc] at hrest

/-- What is there has the mark as its value. -/
private theorem get?_eq_of_contains (h : Widened r m cs n) {key : UInt32}
    (hkey : n.store.entries.contains key = true) :
    n.store.entries.get? key = some allowPresent := by
  obtain ⟨v, hv⟩ := Option.isSome_iff_exists.mp hkey
  rw [hv, h.marked key v hv]

end Widened

namespace Consumer

/-- A run widens the allow list by what its records call for. -/
private theorem widened_run (r : Resolver) (m : AllowManager MemoryStore) (reporter : Reporter)
    (name : String) (xs : List Sample)
    (hmarks : ∀ key v, m.store.entries.get? key = some v → v = allowPresent) :
    Widened r m (xs.filterMap Sample.connection?)
      ((starting m reporter).run r none (.holding name xs)).consumer.allow := by
  have hfold := (Widened.refl r hmarks).foldl_add (f := (starting m reporter).findings)
    (xs.filterMap Sample.connection?)
  rw [← findings_steps] at hfold
  rw [run_holding]
  exact hfold

/-- A key that is new after a run has a sample that `Reports` it, for an address that the resolver
`Permits`; and every key that is reported so is there after the run, unless its address is
`rejected` or the store is full without it.  No key is lost.  An address without names is let in
only if one of the `suffixes` is empty or the root. -/
theorem run_widens_exactly (r : Resolver) (m : AllowManager MemoryStore) (reporter : Reporter)
    (name : String) (xs : List Sample)
    (hmarks : ∀ key v, m.store.entries.get? key = some v → v = allowPresent) :
    let before := m.store.entries
    let after := ((starting m reporter).run r none (.holding name xs)).consumer.allow.store.entries
    (∀ key, after.contains key = true → before.contains key = false →
      ∃ s ∈ xs, ∃ x, s.Reports x key ∧ r.Permits m.suffixes x) ∧
    (∀ s ∈ xs, ∀ x key, s.Reports x key → r.Permits m.suffixes x →
      after.get? key = some allowPresent ∨ x ∈ m.store.rejected ∨
        (after.get? key = none ∧ ∃ c, m.store.capacity = some c ∧ c ≤ after.size)) ∧
    (∀ key, before.contains key = true → after.get? key = some allowPresent) ∧
    (∀ s ∈ xs, ∀ x key, s.Reports x key → (∀ names, r.names.get? x = some names → names = []) →
      after.contains key = true → before.contains key = false →
        ∃ p ∈ m.suffixes, p = "" ∨ p = ".") := by
  intro before after
  have h := widened_run r m reporter name xs hmarks
  -- Connections are told by the invariant; here they are traced back to their samples.
  have hjustified : ∀ key, after.contains key = true → before.contains key = false →
      ∃ s ∈ xs, ∃ x, s.Reports x key ∧ r.Permits m.suffixes x := by
    intro key hafter hbefore
    obtain ⟨c, hc, hkey, hpermits⟩ := h.justified key hafter hbefore
    obtain ⟨s, hs, hsc⟩ := List.mem_filterMap.mp hc
    exact ⟨s, hs, c.destination, Sample.reports_iff.mpr ⟨⟨c, hsc, rfl⟩, hkey.symm⟩, hpermits⟩
  refine ⟨hjustified, ?_, ?_, ?_⟩
  · intro s hs x key hreports hpermits
    obtain ⟨⟨c, hsc, rfl⟩, rfl⟩ := Sample.reports_iff.mp hreports
    rcases h.complete c (List.mem_filterMap.mpr ⟨s, hs, hsc⟩) hpermits with hin | hrej | hroom
    · exact .inl (h.get?_eq_of_contains hin)
    · exact .inr (.inl (h.rejected ▸ hrej))
    · obtain ⟨hnot, c', hcap, hfull⟩ := MemoryStore.hasRoom_eq_false_iff.mp hroom
      refine .inr (.inr ⟨?_, c', h.capacity ▸ hcap, hfull⟩)
      exact Option.isNone_iff_eq_none.mp (by rw [← Option.isSome_eq_false_iff]; exact hnot)
  · intro key hbefore
    exact h.get?_eq_of_contains (h.kept key hbefore)
  · intro s hs x key hreports hnone hafter hbefore
    obtain ⟨s', hs', x', hreports', hpermits⟩ := hjustified key hafter hbefore
    -- Both samples name the same key, and thereby the same address.
    have hx : x = x' := Ipv4.key_inj.mp (hreports.key_eq.symm.trans hreports'.key_eq)
    subst hx
    exact hpermits.of_no_names hnone

/-- A resolver that knows the name of one address. -/
def sevens : Resolver := ⟨.empty, .ofList [(⟨7, 7, 7, 7⟩, ["seven.example."])]⟩

/-- `sevens` knows the name of one address, and no other. -/
private theorem sevens_names (x : Ipv4) :
    sevens.names.get? x = if x = ⟨7, 7, 7, 7⟩ then some ["seven.example."] else none := by
  simp only [sevens, Table.ofList, List.foldl_cons, List.foldl_nil, Table.get?_insert,
    Table.get?_empty, Std.LawfulEqCmp.compare_eq_iff_eq]

/-- An allow list with the loopback address in it, and two texts that names may contain. -/
def loopbackOnly : AllowManager MemoryStore :=
  ⟨{ entries := .ofList [(0x0100007f, allowPresent)] }, ["example", "."], .empty⟩

/-- Two records are let in, one for its name and one for having none; the loopback address, which
was there before, is still there. -/
theorem run_widens_exactly_twoRecords :
    let after := ((starting loopbackOnly default).run sevens none
      (.holding "ipv4_events" twoRecords)).consumer.allow.store.entries
    (∀ key v, loopbackOnly.store.entries.get? key = some v → v = allowPresent) ∧
    after.get? 0x07070707 = some allowPresent ∧
    after.get? 0 = some allowPresent ∧
    after.get? 0x0100007f = some allowPresent ∧
    (∃ s ∈ twoRecords, ∃ x, s.Reports x 0x07070707 ∧ sevens.Permits loopbackOnly.suffixes x) ∧
    ∃ p ∈ loopbackOnly.suffixes, p = "" ∨ p = "." := by
  intro after
  have hmarks : ∀ key v, loopbackOnly.store.entries.get? key = some v → v = allowPresent := by
    intro key v hv
    simp only [loopbackOnly, Table.ofList, List.foldl_cons, List.foldl_nil, Table.get?_insert,
      Table.get?_empty] at hv
    split at hv
    · exact (Option.some.inj hv).symm
    · simp at hv
  obtain ⟨hjustified, hcomplete, hkept, hroot⟩ :=
    run_widens_exactly sevens loopbackOnly default "ipv4_events" twoRecords hmarks
  have hnamed : Sample.Reports (.bytes (List.replicate 36 7)) ⟨7, 7, 7, 7⟩ 0x07070707 :=
    ⟨List.replicate 36 7, rfl, rfl, rfl, rfl⟩
  have hunnamed : Sample.Reports (.bytes (List.replicate 36 0)) ⟨0, 0, 0, 0⟩ 0 :=
    ⟨List.replicate 36 0, rfl, rfl, rfl, rfl⟩
  have hnone : ∀ names, sevens.names.get? ⟨0, 0, 0, 0⟩ = some names → names = [] := by
    intro names h
    simp [sevens_names] at h
  -- Nothing is rejected and there is no limit, so that what is permitted is let in.
  have hin : ∀ s ∈ twoRecords, ∀ x key, s.Reports x key → sevens.Permits loopbackOnly.suffixes x →
      after.get? key = some allowPresent := by
    intro s hs x key hreports hpermits
    rcases hcomplete s hs x key hreports hpermits with h | h | ⟨-, c, hc, -⟩
    · exact h
    · exact absurd h (by simp [loopbackOnly])
    · exact absurd hc (by simp [loopbackOnly])
  have hseven : after.get? 0x07070707 = some allowPresent := by
    have hpermits : sevens.Permits loopbackOnly.suffixes ⟨7, 7, 7, 7⟩ :=
      ⟨"seven.example.", .listed (sevens_names _) (by simp), "example", by simp [loopbackOnly],
        "seven.".toList, ".".toList, rfl⟩
    exact hin _ (by simp [twoRecords]) _ _ hnamed hpermits
  have hzero : after.get? 0 = some allowPresent := by
    have hpermits : sevens.Permits loopbackOnly.suffixes ⟨0, 0, 0, 0⟩ :=
      ⟨".", .unresolved hnone, ".", by simp [loopbackOnly], List.infix_rfl⟩
    exact hin _ (by simp [twoRecords]) _ _ hunnamed hpermits
  refine ⟨hmarks, hseven, hzero, hkept _ rfl, ?_, ?_⟩
  · exact hjustified _ (by rw [Table.contains, hseven]; rfl) rfl
  · exact hroot _ (by simp [twoRecords]) _ _ hunnamed hnone (by rw [Table.contains, hzero]; rfl) rfl

end Consumer

end EgressControl
