import EgressControl.Consumer

/-!
# The consumer, sample by sample

`Consumer.consume` reads from a stream until there is nothing to read.  Here a read is taken
apart from what it causes: `step` deals with one sample and `steps` with a list of them.

- `consume_append`: as long as nobody closes the stream, what is read first is dealt with first,
  and the rest is consumed afterwards;
- `run_holding`: to read a stream that no one sends to any more is to take steps over all that
  waits in it;
- `stats_steps`: steps count the samples by their kind;
- `findings_steps`: allow list and reporter only see the connections among the samples, in order.
-/

namespace EgressControl

/-! ## Kinds of samples -/

namespace Sample

/-- Whether a sample has the length of a record. -/
def isRecord : Sample → Bool
  | bytes raw => raw.length = Record.size
  | fault _ _ => false

/-- Whether a sample has been read, but has another length than a record. -/
def isMalformed : Sample → Bool
  | bytes raw => raw.length ≠ Record.size
  | fault _ _ => false

/-- Whether a sample could not be read. -/
def isFault : Sample → Bool
  | bytes _ => false
  | fault _ _ => true

/-- The connection that a sample reports. -/
def connection? : Sample → Option Connection
  | bytes raw =>
    match Record.decode? raw with
    | .ok record => some (.ofRecord record)
    | .error _ => none
  | fault _ _ => none

/-- Exactly the samples of the length of a record report a connection. -/
theorem isSome_connection? (x : Sample) : x.connection?.isSome = x.isRecord := by
  cases x with
  | fault cpu cause => rfl
  | bytes raw =>
    by_cases h : raw.length = Record.size <;> simp [connection?, isRecord, Record.decode?, h]

/-- Exactly the samples that are no records report no connection. -/
theorem connection?_eq_none_iff {x : Sample} : x.connection? = none ↔ x.isRecord = false := by
  rw [← isSome_connection?, Option.isSome_eq_false_iff, Option.isNone_iff_eq_none]

/-- Faulty samples report no connection, so that they can be left out. -/
theorem filterMap_connection?_filter (xs : List Sample) :
    (xs.filter isRecord).filterMap connection? = xs.filterMap connection? := by
  rw [List.filterMap_filter]
  congr 1
  funext x
  cases h : x.isRecord with
  | true => rfl
  | false => exact (connection?_eq_none_iff.mpr h).symm

end Sample

/-- Two records behind a sample that is none. -/
def twoRecords : List Sample :=
  [.bytes [], .bytes (List.replicate 36 0), .bytes (List.replicate 36 7)]

/-- The counts after some more samples. -/
def ConsumerStats.plus (c : ConsumerStats) (xs : List Sample) : ConsumerStats where
  processed := c.processed + xs.countP Sample.isRecord
  malformed := c.malformed + xs.countP Sample.isMalformed
  readErrors := c.readErrors + xs.countP Sample.isFault

/-- Samples are counted one by one. -/
private theorem ConsumerStats.plus_cons (c : ConsumerStats) (x : Sample) (xs : List Sample) :
    c.plus (x :: xs) = (c.plus [x]).plus xs := by
  simp only [plus, List.countP_cons, List.countP_nil, mk.injEq]
  omega

/-- What the connections of a run leave behind: the allow list and the report. -/
structure Findings (σ : Type) where
  allow : AllowManager σ
  reporter : Reporter

/-- Takes in a connection. -/
def Findings.add {σ : Type} [AllowStore σ] (r : Resolver) (f : Findings σ) (c : Connection) :
    Findings σ :=
  let names := r.namesOf c.destination
  let o := f.allow.observe c.destination names
  ⟨o.manager, (f.reporter.record c names o.allowed).1⟩

namespace Consumer

variable {σ : Type} [AllowStore σ]

/-- The consumer as it begins a run. -/
def starting (m : AllowManager σ) (reporter : Reporter) : Consumer σ := ⟨m, reporter, {}⟩

/-- What the consumer has found out so far. -/
def findings (k : Consumer σ) : Findings σ := ⟨k.allow, k.reporter⟩

/-- Deals with what a read gave. -/
def step (r : Resolver) (k : Consumer σ) : Sample → Consumer σ × List Log.Line
  | .bytes raw => k.handleBytes r raw
  | .fault cpu cause => k.handleFault (.buffer cpu cause)

/-- Deals with samples one after the other. -/
def steps (r : Resolver) (k : Consumer σ) : List Sample → Consumer σ × List Log.Line
  | [] => (k, [])
  | x :: xs =>
    let (k', lines) := k.step r x
    let (k'', rest) := k'.steps r xs
    (k'', lines ++ rest)

/-- The consumer after some `steps` has taken the first of them, and then the rest. -/
private theorem fst_steps_cons (r : Resolver) (k : Consumer σ) (x : Sample) (xs : List Sample) :
    (k.steps r (x :: xs)).1 = ((k.step r x).1.steps r xs).1 := rfl

/-- The lines of some `steps` are those of the first of them, and then those of the rest. -/
private theorem snd_steps_cons (r : Resolver) (k : Consumer σ) (x : Sample) (xs : List Sample) :
    (k.steps r (x :: xs)).2 = (k.step r x).2 ++ ((k.step r x).1.steps r xs).2 := rfl

/-- `steps` over two lists are steps over the first one, and then over the second one. -/
theorem steps_append (r : Resolver) (k : Consumer σ) (xs ys : List Sample) :
    k.steps r (xs ++ ys) =
      (((k.steps r xs).1.steps r ys).1, (k.steps r xs).2 ++ ((k.steps r xs).1.steps r ys).2) := by
  induction xs generalizing k with
  | nil => rfl
  | cons x xs ih =>
    ext1
    · rw [List.cons_append, fst_steps_cons, ih, fst_steps_cons]
    · rw [List.cons_append, snd_steps_cons, ih, fst_steps_cons, snd_steps_cons, List.append_assoc]

/-! ## What one step does -/

/-- A record is dealt with as the connection that it reports. -/
private theorem step_of_connection? {x : Sample} {c : Connection} (r : Resolver) (k : Consumer σ)
    (h : x.connection? = some c) : k.step r x = k.handle r c := by
  cases x with
  | fault cpu cause => simp [Sample.connection?] at h
  | bytes raw =>
    simp only [Sample.connection?] at h
    simp only [step, handleBytes]
    split at h
    · next record hd =>
      obtain rfl := Option.some.inj h
      rw [hd]
    · simp at h

/-- A step counts its sample, whatever its kind. -/
theorem stats_step (r : Resolver) (k : Consumer σ) (x : Sample) :
    (k.step r x).1.stats = k.stats.plus [x] := by
  cases x with
  | fault cpu cause => rfl
  | bytes raw =>
    -- The length alone decides whether decoding succeeds.
    by_cases h : raw.length = Record.size
    · simp [step, handleBytes, Record.decode?, h, handle, ConsumerStats.plus, Sample.isRecord,
        Sample.isMalformed, Sample.isFault]
    · simp [step, handleBytes, Record.decode?, h, ConsumerStats.plus, Sample.isRecord,
        Sample.isMalformed, Sample.isFault]

/-- What is no record changes neither allow list nor report. -/
theorem findings_step_of_none {x : Sample} (r : Resolver) (k : Consumer σ)
    (h : x.connection? = none) : (k.step r x).1.findings = k.findings := by
  cases x with
  | fault cpu cause => rfl
  | bytes raw =>
    have hlen : raw.length ≠ Record.size := by
      simpa [Sample.isRecord] using Sample.connection?_eq_none_iff.mp h
    simp [step, handleBytes, Record.decode?, hlen, findings]

/-- A sample that reports a connection adds it to the findings. -/
theorem findings_step_of_some {x : Sample} {c : Connection} (r : Resolver) (k : Consumer σ)
    (h : x.connection? = some c) : (k.step r x).1.findings = k.findings.add r c := by
  rw [step_of_connection? r k h]
  rfl

/-! ## What many steps do -/

/-- Steps count every sample once, by its kind. -/
theorem stats_steps (r : Resolver) (k : Consumer σ) (xs : List Sample) :
    (k.steps r xs).1.stats = k.stats.plus xs := by
  induction xs generalizing k with
  | nil => rfl
  | cons x xs ih => rw [fst_steps_cons, ih, stats_step, ← ConsumerStats.plus_cons]

/-- Allow list and reporter see the connections among the samples, and nothing else. -/
theorem findings_steps (r : Resolver) (k : Consumer σ) (xs : List Sample) :
    (k.steps r xs).1.findings =
      (xs.filterMap Sample.connection?).foldl (Findings.add r) k.findings := by
  induction xs generalizing k with
  | nil => rfl
  | cons x xs ih =>
    rw [fst_steps_cons, ih]
    cases h : x.connection? with
    | none => rw [List.filterMap_cons_none h, findings_step_of_none r k h]
    | some c => rw [List.filterMap_cons_some h, List.foldl_cons, findings_step_of_some r k h]

/-! ## Reading from a stream -/

/-- A stream from which the next read gives a sample. -/
theorem consume_cons (r : Resolver) (closeAt : Option Nat) (k : Consumer σ) {s : Stream}
    {x : Sample} {rest : List Sample} (hr : s.hasReader = true) (hc : s.closed = false)
    (hq : s.queue = x :: rest) :
    consume r closeAt k s =
      let q := k.step r x
      let t := afterLookup closeAt k.stats q.1.stats { s with queue := rest }
      let p := consume r closeAt q.1 t
      { p with logs := q.2 ++ p.logs } := by
  cases x with
  | bytes raw => exact consume_bytes r closeAt k hr hc hq
  | fault cpu cause =>
    rw [consume_fault r closeAt k hr hc hq]
    -- A failed read is no lookup, so that nobody closes the stream meanwhile.
    simp [step, handleFault, afterLookup]

omit [AllowStore σ] in
/-- The stream is left open while fewer connections have been looked up than asked for. -/
private theorem afterLookup_of_lt {closeAt : Option Nat} (before : ConsumerStats)
    {after : ConsumerStats}
    (s : Stream) (h : ∀ n ∈ closeAt, after.processed < n) :
    afterLookup closeAt before after s = s := by
  refine if_neg fun hclose => ?_
  exact Nat.lt_irrefl _ (h after.processed hclose.2)

/-- What is read before the stream is closed is dealt with, and then the rest is consumed. -/
theorem consume_append (r : Resolver) {closeAt : Option Nat} (k : Consumer σ) {s : Stream}
    {xs rest : List Sample} (hr : s.hasReader = true) (hc : s.closed = false)
    (hq : s.queue = xs ++ rest)
    (hn : ∀ n ∈ closeAt, k.stats.processed + xs.countP Sample.isRecord < n) :
    consume r closeAt k s =
      let q := k.steps r xs
      let p := consume r closeAt q.1 { s with queue := rest }
      { p with logs := q.2 ++ p.logs } := by
  induction xs generalizing k s with
  | nil =>
    rw [List.nil_append] at hq
    subst hq
    rfl
  | cons x xs ih =>
    have hstats := stats_step r k x
    -- What is still to come before the close gets smaller by what this step has counted.
    have hopen : ∀ n ∈ closeAt, (k.step r x).1.stats.processed + xs.countP Sample.isRecord < n := by
      intro n hmem
      have := hn n hmem
      rw [List.countP_cons] at this
      rw [hstats]
      simp only [ConsumerStats.plus, List.countP_cons, List.countP_nil]
      omega
    have hleft : ∀ n ∈ closeAt, (k.step r x).1.stats.processed < n :=
      fun n hmem => Nat.lt_of_le_of_lt (Nat.le_add_right _ _) (hopen n hmem)
    have hrest := ih (k.step r x).1 (s := { s with queue := xs ++ rest }) hr hc rfl hopen
    rw [consume_cons r closeAt k hr hc hq]
    simp only [afterLookup_of_lt _ _ hleft, fst_steps_cons, snd_steps_cons, List.append_assoc]
    simp only [List.append_eq, hrest]

/-- A stream that nobody closes is read until nothing waits in it. -/
theorem consume_eq_steps (r : Resolver) {closeAt : Option Nat} (k : Consumer σ) {s : Stream}
    (hr : s.hasReader = true) (hc : s.closed = false)
    (hn : ∀ n ∈ closeAt, k.stats.processed + s.queue.countP Sample.isRecord < n) :
    consume r closeAt k s =
      ⟨(k.steps r s.queue).1, { s with queue := [] }, (k.steps r s.queue).2⟩ := by
  have hnil := consume_nil r closeAt (k.steps r s.queue).1 (s := { s with queue := [] }) hr hc rfl
  rw [consume_append r k hr hc (List.append_nil s.queue).symm hn]
  simp only [hnil, List.append_nil]

/-- A run over samples to which nobody adds any takes a step for each and tells the end. -/
theorem run_holding (r : Resolver) (k : Consumer σ) (name : String) (xs : List Sample) :
    run r none k (.holding name xs) =
      ⟨(k.steps r xs).1, .holding name [],
        (k.steps r xs).2 ++ [closedLine name (k.stats.plus xs)]⟩ := by
  have hc : consume r none k (.holding name xs) =
      ⟨(k.steps r xs).1, .holding name [], (k.steps r xs).2⟩ :=
    consume_eq_steps r k rfl rfl (by simp)
  rw [run, hc]
  simp only [stats_steps]
  rfl

end Consumer

end EgressControl
