import EgressControl.Proofs.Consumer.Steps

/-!
# Closing the stream under a consumer

Somebody closes the stream of opened connections while a connection is looked up.  The connection
in hand is dealt with to its end, and nothing that still waits in the stream is touched.

- `exists_nth`: where in a list the nth element of a kind stands;
- `afterLookup_nth`: the lookup during which the stream is closed;
- `consume_close_at_nth`, `run_close_at_nth`: a run that is closed at the nth record takes in the
  samples up to that record;
- `run_close_at_lookup`: the same for any list of samples, also with too few records, and for a
  stream that is closed before the run.
-/

namespace EgressControl

/-! ## The shortest beginning with n elements of a kind -/

/-- The nth element of a kind stands behind `n - 1` others of that kind. -/
theorem exists_nth {α : Type} {p : α → Bool} {n : Nat} {xs : List α} (hpos : 1 ≤ n)
    (hn : n ≤ xs.countP p) :
    ∃ pre x post, xs = pre ++ x :: post ∧ p x = true ∧ pre.countP p + 1 = n := by
  induction xs generalizing n with
  | nil =>
    rw [List.countP_nil] at hn
    omega
  | cons a xs ih =>
    by_cases ha : p a = true
    · rw [List.countP_cons_of_pos ha] at hn
      -- `a` is the record looked for, or the one before it in the count.
      by_cases hone : n = 1
      · exact ⟨[], a, xs, rfl, ha, by simp [hone]⟩
      · obtain ⟨pre, x, post, rfl, hx, hcount⟩ := ih (n := n - 1) (by omega) (by omega)
        refine ⟨a :: pre, x, post, rfl, hx, ?_⟩
        rw [List.countP_cons_of_pos ha]
        omega
    · rw [List.countP_cons_of_neg ha] at hn
      obtain ⟨pre, x, post, rfl, hx, hcount⟩ := ih hpos hn
      refine ⟨a :: pre, x, post, rfl, hx, ?_⟩
      rw [List.countP_cons_of_neg ha]
      exact hcount

/-- No shorter beginning of a list has as many elements of a kind as the one that ends with the
nth of them. -/
private theorem prefix_of_countP_lt {α : Type} {p : α → Bool} {pre post qs : List α} {x : α}
    (hq : qs <+: pre ++ x :: post) (hcount : pre.countP p < qs.countP p) : pre ++ [x] <+: qs := by
  have hpx : pre ++ [x] <+: pre ++ x :: post :=
    List.prefix_append_right_inj pre |>.mpr (by simp)
  rcases List.prefix_or_prefix_of_prefix hpx hq with h | h
  · exact h
  · rcases List.prefix_concat_iff.mp (by simpa using h) with heq | hlt
    · exact heq ▸ List.prefix_refl _
    · -- A beginning of `pre` has no more elements of the kind than `pre`.
      have := hlt.sublist.countP_le (p := p)
      omega

namespace Consumer

variable {σ : Type} [AllowStore σ]

/-! ## The record in hand -/

/-- The stream is closed while the record is looked up that makes the count full. -/
theorem afterLookup_nth {n : Nat} (r : Resolver) (k : Consumer σ) {x : Sample} (s : Stream)
    (hx : x.isRecord = true) (hn : k.stats.processed + 1 = n) :
    afterLookup (some n) k.stats (k.step r x).1.stats s = s.close := by
  have hprocessed : (k.step r x).1.stats.processed = k.stats.processed + 1 := by
    rw [stats_step]
    simp [ConsumerStats.plus, hx]
  refine if_pos ⟨?_, ?_⟩
  · rw [hprocessed]
    exact Nat.lt_succ_self _
  · rw [hprocessed, hn]

/-- A stream that is closed while the nth record is looked up gives the samples up to that record,
and the others stay where they are. -/
theorem consume_close_at_nth {n : Nat} (r : Resolver) (k : Consumer σ) {s : Stream}
    {pre post : List Sample} {x : Sample} (hr : s.hasReader = true) (hc : s.closed = false)
    (hq : s.queue = pre ++ x :: post) (hx : x.isRecord = true)
    (hn : k.stats.processed + pre.countP Sample.isRecord + 1 = n) :
    consume r (some n) k s =
      ⟨(k.steps r (pre ++ [x])).1, ({ s with queue := post } : Stream).close,
        (k.steps r (pre ++ [x])).2⟩ := by
  -- Before the nth record nobody closes the stream.
  have hbefore : ∀ i ∈ some n, k.stats.processed + pre.countP Sample.isRecord < i := by
    intro i hi
    obtain rfl := Option.mem_some_iff.mp hi
    omega
  have hlast : (k.steps r pre).1.stats.processed + 1 = n := by rw [stats_steps]; exact hn
  -- After it there is nothing to be had from the stream.
  have hafter : consume r (some n) (k.steps r pre).1 { s with queue := x :: post } =
      ⟨((k.steps r pre).1.step r x).1, ({ s with queue := post } : Stream).close,
        ((k.steps r pre).1.step r x).2⟩ := by
    have hend := consume_of_closed r (some n) ((k.steps r pre).1.step r x).1
      (s := ({ s with queue := post } : Stream).close) hr rfl
    rw [consume_cons r (some n) _ (s := { s with queue := x :: post }) hr hc rfl]
    simp only [afterLookup_nth r _ _ hx hlast, hend, List.append_nil]
  rw [consume_append r k hr hc hq hbefore, steps_append]
  simp only [hafter, steps, List.append_nil]

/-- A run that is closed while its nth record is looked up is one over the samples up to that
record. -/
theorem run_close_at_nth {n : Nat} (r : Resolver) (k : Consumer σ) (name : String)
    {pre post : List Sample} {x : Sample} (hx : x.isRecord = true)
    (hn : k.stats.processed + pre.countP Sample.isRecord + 1 = n) :
    run r (some n) k (.holding name (pre ++ x :: post)) =
      ⟨(k.steps r (pre ++ [x])).1, (Stream.holding name post).close,
        (k.steps r (pre ++ [x])).2 ++ [closedLine name (k.stats.plus (pre ++ [x]))]⟩ := by
  rw [run, consume_close_at_nth r k (s := .holding name (pre ++ x :: post)) rfl rfl rfl hx hn]
  simp only [stats_steps]
  rfl

/-! ## Any list of samples -/

/-- A run that is closed at the lookup of record `n` is the run over `pre`, the shortest prefix
with `n` records, and leaves `post` unread.  With fewer than `n` records nothing closes the
stream, and from a stream that is closed at the start nothing is read. -/
theorem run_close_at_lookup (r : Resolver) (m : AllowManager σ) (reporter : Reporter)
    (name : String) (xs : List Sample) (n : Nat) (hpos : 1 ≤ n) :
    let k := starting m reporter
    let p := k.run r (some n) (.holding name xs)
    (n ≤ xs.countP Sample.isRecord →
      ∃ pre post, xs = pre ++ post ∧ pre.countP Sample.isRecord = n ∧
        (∀ qs, qs <+: xs → n ≤ qs.countP Sample.isRecord → pre <+: qs) ∧
        p.consumer = (k.run r none (.holding name pre)).consumer ∧
        p.logs = (k.run r none (.holding name pre)).logs ∧
        p.stream = (Stream.holding name post).close) ∧
    (xs.countP Sample.isRecord < n → p = k.run r none (.holding name xs)) ∧
    ∀ closeAt, k.run r closeAt (Stream.holding name xs).close =
      ⟨k, (Stream.holding name xs).close, [closedLine name {}]⟩ := by
  intro k p
  refine ⟨?_, ?_, ?_⟩
  · intro hn
    obtain ⟨pre, x, post, rfl, hx, hcount⟩ := exists_nth hpos hn
    have hk : k.stats.processed + pre.countP Sample.isRecord + 1 = n :=
      (congrArg (· + 1) (Nat.zero_add _)).trans hcount
    have hrun : p = _ := run_close_at_nth r k name hx hk
    refine ⟨pre ++ [x], post, by simp, by simp [hx, hcount], ?_, ?_, ?_, ?_⟩
    · -- Without the nth record a beginning has fewer than n of them.
      intro qs hq hle
      have hlt : pre.countP Sample.isRecord < qs.countP Sample.isRecord := by omega
      exact prefix_of_countP_lt hq hlt
    · rw [hrun, run_holding]
    · rw [hrun, run_holding]
    · rw [hrun]
  · intro hlt
    -- The count never becomes full, so that both runs read all that waits.
    have hopen : ∀ i ∈ some n, k.stats.processed + xs.countP Sample.isRecord < i := by
      intro i hi
      obtain rfl := Option.mem_some_iff.mp hi
      exact (Nat.zero_add _).symm ▸ hlt
    have hconsume :
        consume r (some n) k (.holding name xs) = consume r none k (.holding name xs) := by
      rw [consume_eq_steps r k rfl rfl hopen, consume_eq_steps r k rfl rfl (by simp)]
    simp only [p, run, hconsume]
  · intro closeAt
    rw [run, consume_of_closed r closeAt k rfl rfl]
    rfl

/-- Closed at the first of two records, a run leaves the second one unread.  A third record, at
which it could be closed, does not come. -/
theorem run_close_at_first :
    (1 ≤ twoRecords.countP Sample.isRecord ∧ twoRecords.countP Sample.isRecord < 3) ∧
    (∃ pre post, twoRecords = pre ++ post ∧ pre.countP Sample.isRecord = 1 ∧
      (run .empty (some 1) (starting (⟨{}, [], .empty⟩ : AllowManager MemoryStore) default)
        (.holding "ipv4_events" twoRecords)).stream =
          (Stream.holding "ipv4_events" post).close) ∧
    run .empty (some 3) (starting (⟨{}, [], .empty⟩ : AllowManager MemoryStore) default)
        (.holding "ipv4_events" twoRecords) =
      run .empty none (starting (⟨{}, [], .empty⟩ : AllowManager MemoryStore) default)
        (.holding "ipv4_events" twoRecords) := by
  have hfirst := run_close_at_lookup .empty (⟨{}, [], .empty⟩ : AllowManager MemoryStore) default
    "ipv4_events" twoRecords 1 (by decide)
  have hthird := run_close_at_lookup .empty (⟨{}, [], .empty⟩ : AllowManager MemoryStore) default
    "ipv4_events" twoRecords 3 (by decide)
  obtain ⟨pre, post, hsplit, hcount, -, -, -, hstream⟩ := hfirst.1 (by decide)
  exact ⟨by decide, ⟨pre, post, hsplit, hcount, hstream⟩, hthird.2.1 (by decide)⟩

end Consumer

end EgressControl
