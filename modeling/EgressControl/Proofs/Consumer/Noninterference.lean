import EgressControl.Proofs.Consumer.Interleaving
import EgressControl.Proofs.Record.Layout
import Mathlib.Data.List.Forall2

/-!
# What a run does not look at

Of a record the allow list and the report see the destination, the port and the task name up to the
first zero; of any other sample they see nothing, and the counts see its kind.  Samples that are the
same in this are `Alike`, whatever else stands in them: time, process number, family, and the bytes
that the kernel has left behind the task name.

Two consumers that know the same go on doing so over samples that are alike (`SameKnowledge.step`),
also if somebody closes the stream meanwhile (`SameKnowledge.consume`).  `run_of_alike` is the
result for a run.
-/

namespace EgressControl

/-! ## Samples that are alike -/

/-- Two samples in which a run sees the same: both could not be read, or both do not have the length
of a record, or both are records with the same destination and port, and with task names that are
the same up to the first zero. -/
inductive Sample.Alike : Sample → Sample → Prop where
  | fault (cpu cpu' : Nat) (cause cause' : PerfError) :
      Alike (.fault cpu cause) (.fault cpu' cause')
  | malformed {raw raw' : List UInt8} : raw.length ≠ 36 → raw'.length ≠ 36 →
      Alike (.bytes raw) (.bytes raw')
  | record {raw raw' : List UInt8} : raw.length = 36 → raw'.length = 36 →
      raw.drop 30 = raw'.drop 30 →
      ((raw.drop 14).take 16).takeWhile (· ≠ 0) = ((raw'.drop 14).take 16).takeWhile (· ≠ 0) →
      Alike (.bytes raw) (.bytes raw')

namespace Sample

variable {x y : Sample}

/-- Samples that are alike are counted alike. -/
private theorem Alike.plus_eq (h : Alike x y) (c : ConsumerStats) : c.plus [x] = c.plus [y] := by
  cases h with
  | fault => rfl
  | malformed hlen hlen' =>
    simp [ConsumerStats.plus, isRecord, isMalformed, isFault, Record.size, hlen, hlen']
  | record hlen hlen' =>
    simp [ConsumerStats.plus, isRecord, isMalformed, isFault, Record.size, hlen, hlen']

/-- Samples that are alike report connections of one row, or none. -/
private theorem Alike.keyOf_eq (h : Alike x y) :
    x.connection?.map Report.keyOf = y.connection?.map Report.keyOf := by
  cases h with
  | fault => rfl
  | malformed hlen hlen' => simp [connection?, Record.decode?, Record.size, hlen, hlen']
  | @record raw raw' hlen hlen' hend htask =>
    obtain ⟨r, hr⟩ := Record.exists_decode?_iff.mpr hlen
    obtain ⟨r', hr'⟩ := Record.exists_decode?_iff.mpr hlen'
    obtain ⟨-, -, -, -, hname, haddress, hport⟩ := Record.decode?_eq_ok_iff_fields.mp hr
    obtain ⟨-, -, -, -, hname', haddress', hport'⟩ := Record.decode?_eq_ok_iff_fields.mp hr'
    have htask' : taskName r.task = taskName r'.task := by
      rw [taskName, ← hname, taskName, ← hname']
      exact congrArg (fun bs => String.ofList (Text.Utf8.decodeLossy bs)) htask
    -- Destination and port are the last six bytes, and nothing else is.
    have haddresses : r.address = r'.address := by
      rw [← UInt32.toNat_inj, ← haddress, ← haddress']
      exact congrArg (fun bs => LittleEndian.decode (bs.take 4)) hend
    have hlast : raw.drop 34 = raw'.drop 34 := by simpa using congrArg (List.drop 4) hend
    have hports : r.port = r'.port := by
      rw [← UInt16.toNat_inj, ← hport, ← hport', Record.field, Record.field, hlast]
    simp only [connection?, hr, hr', Option.map_some, Report.keyOf, Connection.ofRecord, htask',
      haddresses, hports]

end Sample

/-! ## Consumers that know the same -/

namespace Consumer

variable {σ : Type} [AllowStore σ]

/-- Two consumers have counted the same and found out the same. -/
structure SameKnowledge (k l : Consumer σ) : Prop where
  stats : k.stats = l.stats
  findings : Findings.Agree k.findings l.findings

namespace SameKnowledge

variable {k l : Consumer σ}

omit [AllowStore σ] in
/-- A consumer knows the same as itself. -/
private theorem refl (k : Consumer σ) : SameKnowledge k k := ⟨rfl, .refl _⟩

/-- Samples that are alike tell two consumers the same. -/
theorem step (h : SameKnowledge k l) (r : Resolver) {x y : Sample} (hxy : x.Alike y) :
    SameKnowledge (k.step r x).1 (l.step r y).1 where
  stats := by rw [stats_step, stats_step, h.stats, hxy.plus_eq]
  findings := by
    have hkey := hxy.keyOf_eq
    -- Alike samples both decode or both fail to; decoded, they agree on what the handling
    -- looks at.
    cases hx : x.connection? with
    | none =>
      have hy : y.connection? = none := by
        rwa [hx, Option.map_none, eq_comm, Option.map_eq_none_iff] at hkey
      rw [findings_step_of_none r k hx, findings_step_of_none r l hy]
      exact h.findings
    | some c =>
      rw [hx, Option.map_some, eq_comm, Option.map_eq_some_iff] at hkey
      obtain ⟨d, hy, hcd⟩ := hkey
      rw [findings_step_of_some r k hx, findings_step_of_some r l hy]
      exact h.findings.add_of_keyOf_eq r hcd.symm

omit [AllowStore σ] in
/-- Whether a lookup closes a stream has nothing to do with what waits in it. -/
private theorem afterLookup_queue (closeAt : Option Nat) (before after : ConsumerStats) (s : Stream)
    (xs : List Sample) :
    afterLookup closeAt before after { s with queue := xs } =
      { afterLookup closeAt before after s with queue := xs } := by
  unfold afterLookup
  split <;> rfl

omit [AllowStore σ] in
/-- Closing a stream after a look-up leaves its reader where it is. -/
private theorem hasReader_afterLookup (closeAt : Option Nat) (before after : ConsumerStats)
    (s : Stream) :
    (afterLookup closeAt before after s).hasReader = s.hasReader := by
  unfold afterLookup
  split <;> rfl

/-- Over samples that are alike two consumers go on knowing the same, whenever the stream is
closed. -/
theorem consume (h : SameKnowledge k l) (r : Resolver) (closeAt : Option Nat) {s : Stream}
    (hr : s.hasReader = true) {xs ys : List Sample} (hxy : List.Forall₂ Sample.Alike xs ys) :
    SameKnowledge (Consumer.consume r closeAt k { s with queue := xs }).consumer
      (Consumer.consume r closeAt l { s with queue := ys }).consumer := by
  induction hxy generalizing k l s with
  | nil =>
    -- Nothing is read from an empty stream, be it closed or not.
    have hnil (k : Consumer σ) :
        (Consumer.consume r closeAt k { s with queue := [] }).consumer = k := by
      rcases Bool.eq_false_or_eq_true s.closed with hc | hc
      · rw [consume_of_closed r closeAt k (s := { s with queue := [] }) hr hc]
      · rw [consume_nil r closeAt k (s := { s with queue := [] }) hr hc rfl]
    rwa [hnil, hnil]
  | @cons x y xs ys hx _ ih =>
    rcases Bool.eq_false_or_eq_true s.closed with hc | hc
    · rwa [consume_of_closed r closeAt k (s := { s with queue := x :: xs }) hr hc,
        consume_of_closed r closeAt l (s := { s with queue := y :: ys }) hr hc]
    · have hstep := h.step r hx
      rw [consume_cons r closeAt k (s := { s with queue := x :: xs }) hr hc rfl,
        consume_cons r closeAt l (s := { s with queue := y :: ys }) hr hc rfl]
      -- The counts are the same before and after, so that both streams are closed or neither is.
      simp only [afterLookup_queue, h.stats, hstep.stats]
      exact ih hstep (by rwa [hasReader_afterLookup])

end SameKnowledge

/-- Two runs over samples that are `Alike` one by one end with equal counts, stores, `extended`
addresses and reports; so `summary` and `render` are equal too. -/
theorem run_of_alike (r : Resolver) (closeAt : Option Nat) (m : AllowManager σ)
    (reporter : Reporter) (name : String) {xs ys : List Sample}
    (h : List.Forall₂ Sample.Alike xs ys) :
    let p := (starting m reporter).run r closeAt (.holding name xs)
    let q := (starting m reporter).run r closeAt (.holding name ys)
    p.consumer.stats = q.consumer.stats ∧
    p.consumer.allow.store = q.consumer.allow.store ∧
    p.consumer.allow.extended = q.consumer.allow.extended ∧
    p.consumer.reporter.report = q.consumer.reporter.report ∧
    (∀ time, p.consumer.reporter.report.summary time = q.consumer.reporter.report.summary time) ∧
    p.consumer.reporter.report.render = q.consumer.reporter.report.render := by
  intro p q
  have hsame : SameKnowledge p.consumer q.consumer :=
    (SameKnowledge.refl (starting m reporter)).consume r closeAt (s := .holding name []) rfl h
  have hallow : p.consumer.allow = q.consumer.allow := hsame.findings.allow
  have hreport : p.consumer.reporter.report = q.consumer.reporter.report := hsame.findings.report
  exact ⟨hsame.stats, congrArg (·.store) hallow, congrArg (·.extended) hallow, hreport,
    fun time => congrArg (·.summary time) hreport, congrArg (·.render) hreport⟩

/-- A failed read, a sample that is too short, and a connection of the task `curl`.  What does not
matter is filled with one byte. -/
def curlSamples (filler : UInt8) : List Sample :=
  [.fault filler.toNat .noBuffers,
   .bytes (List.replicate filler.toNat 0),
   .bytes (List.replicate 14 filler ++ [99, 117, 114, 108, 0] ++ List.replicate 11 filler ++
     [140, 82, 112, 3, 187, 1])]

/-- The name of the address to which `curl` connects. -/
def curlNames : Resolver := ⟨.empty, .ofList [(⟨140, 82, 112, 3⟩, ["lb.github.com."])]⟩

/-- Two runs over samples that differ in what is not looked at come to the same report. -/
theorem run_of_alike_curl :
    List.Forall₂ Sample.Alike (curlSamples 0) (curlSamples 7) ∧
    (run curlNames none
        (starting (⟨{}, [".github.com"], .empty⟩ : AllowManager MemoryStore) default)
        (.holding "ipv4_events" (curlSamples 0))).consumer.reporter.report =
      (run curlNames none
        (starting (⟨{}, [".github.com"], .empty⟩ : AllowManager MemoryStore) default)
        (.holding "ipv4_events" (curlSamples 7))).consumer.reporter.report := by
  have halike : List.Forall₂ Sample.Alike (curlSamples 0) (curlSamples 7) :=
    .cons (.fault ..) <| .cons (.malformed (by decide) (by decide)) <|
      .cons (.record (by decide) (by decide) (by decide) (by decide)) .nil
  exact ⟨halike, (run_of_alike curlNames none
    (⟨{}, [".github.com"], .empty⟩ : AllowManager MemoryStore) default "ipv4_events"
    halike).2.2.2.1⟩

end Consumer

end EgressControl
