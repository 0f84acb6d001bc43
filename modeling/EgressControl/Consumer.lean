import EgressControl.Allow.Manager
import EgressControl.Report.Reporter
import EgressControl.Resolver
import EgressControl.Stream

/-! # Looking at connections

A `Consumer` reads the stream of opened connections.  Each connection is looked up, perhaps let
in, put into the report and shown in the log.  A sample that is no record, or a failed read, is
told and counted, and nothing else.

`drain` reads the stream of closed connections, which are only counted. -/

namespace EgressControl

/-- What a consumer has counted.  The counts are meant for words of 64 bits, and fit them until
`UInt64.size` samples have been dealt with (`Consumer.counts_lt_size`). -/
structure ConsumerStats where
  /-- Connections that were dealt with. -/
  processed : Nat := 0
  /-- Samples that were no records. -/
  malformed : Nat := 0
  /-- Reads that failed. -/
  readErrors : Nat := 0
  deriving DecidableEq

/-- What a consumer works on. -/
structure Consumer (σ : Type) where
  allow : AllowManager σ
  reporter : Reporter
  stats : ConsumerStats := {}

namespace Consumer

variable {σ : Type} [AllowStore σ]

/-- The line on a connection. -/
def connectionLine (c : Connection) (names : List String) : Log.Line :=
  .info ("[" ++ c.pid.toNat.repr ++ "]" ++ Text.padRight 16 c.task ++ " -> " ++
    Text.padRight 15 c.destination.text ++ " (" ++ ", ".intercalate names ++ ") " ++
    Text.padRight 6 c.port.toNat.repr)

/-- Deals with a connection. -/
def handle (r : Resolver) (k : Consumer σ) (c : Connection) : Consumer σ × List Log.Line :=
  let names := r.namesOf c.destination
  let o := k.allow.observe c.destination names
  -- The row is marked by what became of this very connection.
  let (reporter, reportLines) := k.reporter.record c names o.allowed
  ({ allow := o.manager
     reporter := reporter
     stats := { k.stats with processed := k.stats.processed + 1 } },
    o.logs ++ reportLines ++ [connectionLine c names])

/-- The line on a failed read. -/
def faultLine (e : ReadError) : Log.Line :=
  .error ("reading from perf event reader: " ++ e.message)

/-- The line on a sample that is no record. -/
def malformedLine (e : DecodeError) : Log.Line := .warn ("parsing perf event: " ++ e.message)

/-- Deals with a sample. -/
def handleBytes (r : Resolver) (k : Consumer σ) (raw : List UInt8) :
    Consumer σ × List Log.Line :=
  match Record.decode? raw with
  | .error e =>
    ({ k with stats := { k.stats with malformed := k.stats.malformed + 1 } }, [malformedLine e])
  | .ok record => k.handle r (.ofRecord record)

/-- Counts a failed read. -/
def handleFault (k : Consumer σ) (e : ReadError) : Consumer σ × List Log.Line :=
  ({ k with stats := { k.stats with readErrors := k.stats.readErrors + 1 } }, [faultLine e])

/-- A consumer and its stream after some reads. -/
structure Progress (σ : Type) where
  consumer : Consumer σ
  stream : Stream
  logs : List Log.Line

/-- The stream after a sample has been dealt with: it has been closed by someone else if that
was to happen during the lookup of this connection. -/
def afterLookup (closeAt : Option Nat) (before after : ConsumerStats) (s : Stream) : Stream :=
  if before.processed < after.processed ∧ closeAt = some after.processed then s.close else s

omit [AllowStore σ] in
/-- Closing a stream after a look-up leaves in its `queue` what waits there. -/
private theorem queue_afterLookup (closeAt : Option Nat) (before after : ConsumerStats)
    (s : Stream) :
    (afterLookup closeAt before after s).queue = s.queue := by
  unfold afterLookup
  split <;> rfl

/-- Reads until the stream is closed or there is nothing to read yet.  If `closeAt` is a number,
the stream is closed by someone else while the connection with this number is looked up. -/
def consume (r : Resolver) (closeAt : Option Nat) (k : Consumer σ) (s : Stream) : Progress σ :=
  match _h : s.read with
  | (.failed .closed, t) | (.pending, t) | (.noReader, t) => ⟨k, t, []⟩
  | (.failed (.buffer cpu cause), t) =>
    let (k, lines) := k.handleFault (.buffer cpu cause)
    let p := consume r closeAt k t
    { p with logs := lines ++ p.logs }
  | (.sample raw, t) =>
    let (k', lines) := k.handleBytes r raw
    let p := consume r closeAt k' (afterLookup closeAt k.stats k'.stats t)
    { p with logs := lines ++ p.logs }
termination_by s.queue.length
decreasing_by
  · simp [Stream.queue_of_read (x := .fault _ _) _h]
  · simp [Stream.queue_of_read (x := .bytes _) _h, queue_afterLookup]

/-- A closed stream is left as it is. -/
theorem consume_of_closed (r : Resolver) (closeAt : Option Nat) (k : Consumer σ) {s : Stream}
    (hr : s.hasReader = true) (hc : s.closed = true) : consume r closeAt k s = ⟨k, s, []⟩ := by
  rw [consume]
  split <;> simp_all [Stream.read_of_closed]

/-- An open stream with an empty `queue` is not consumed any further. -/
theorem consume_nil (r : Resolver) (closeAt : Option Nat) (k : Consumer σ) {s : Stream}
    (hr : s.hasReader = true) (hc : s.closed = false) (hq : s.queue = []) :
    consume r closeAt k s = ⟨k, s, []⟩ := by
  have h := Stream.read_nil hr hc hq
  rw [consume]
  -- The answer is "pending" or "closed", as there is a sender or not.
  cases hs : s.hasSender
  all_goals
    rw [hs] at h
    split
    all_goals simp_all

/-- A sample is dealt with before the next read. -/
theorem consume_bytes (r : Resolver) (closeAt : Option Nat) (k : Consumer σ) {s : Stream}
    {raw : List UInt8} {rest : List Sample} (hr : s.hasReader = true) (hc : s.closed = false)
    (hq : s.queue = .bytes raw :: rest) :
    consume r closeAt k s =
      let (k', lines) := k.handleBytes r raw
      let p := consume r closeAt k' (afterLookup closeAt k.stats k'.stats { s with queue := rest })
      { p with logs := lines ++ p.logs } := by
  have h := Stream.read_cons hr hc hq
  rw [consume]
  split <;> simp_all [Stream.Answer.ofSample]

/-- A failed read is told and counted by `handleFault`, and the rest of the `queue` is consumed. -/
theorem consume_fault (r : Resolver) (closeAt : Option Nat) (k : Consumer σ) {s : Stream}
    {cpu : Nat} {cause : PerfError} {rest : List Sample} (hr : s.hasReader = true)
    (hc : s.closed = false) (hq : s.queue = .fault cpu cause :: rest) :
    consume r closeAt k s =
      let (k', lines) := k.handleFault (.buffer cpu cause)
      let p := consume r closeAt k' { s with queue := rest }
      { p with logs := lines ++ p.logs } := by
  have h := Stream.read_cons hr hc hq
  rw [consume]
  split <;> simp_all [Stream.Answer.ofSample]

/-- The line on the end of a stream. -/
def closedLine (name : String) (stats : ConsumerStats) : Log.Line :=
  .info (name ++ " closed: " ++ stats.processed.repr ++ " processed, " ++
    stats.malformed.repr ++ " malformed, " ++ stats.readErrors.repr ++ " read error(s)")

/-- Reads a stream to its end. -/
def run (r : Resolver) (closeAt : Option Nat) (k : Consumer σ) (s : Stream) : Progress σ :=
  let p := k.consume r closeAt s
  { p with logs := p.logs ++ [closedLine s.name p.consumer.stats] }

end Consumer

/-- What has been read of the stream of closed connections. -/
structure Drainage where
  /-- The number of samples. -/
  drained : Nat := 0
  stream : Stream
  logs : List Log.Line := []

namespace Drainage

/-- The line on a sample that was read, if it is a record. -/
def sampleLines (raw : List UInt8) : List Log.Line :=
  match Record.decode? raw with
  | .ok record => [.debug ("connection closed: " ++ (Connection.ofRecord record).display)]
  | .error _ => []

/-- The line on a failed read. -/
def faultLine (name : String) (e : ReadError) : Log.Line :=
  .debug ("reading from " ++ name ++ ": " ++ e.message)

/-- Reads and counts samples until the stream is closed or there is nothing to read yet. -/
def drain (s : Stream) : Drainage :=
  match _h : s.read with
  | (.failed .closed, t) | (.pending, t) | (.noReader, t) => { stream := t }
  | (.failed (.buffer cpu cause), t) =>
    let d := drain t
    { d with logs := faultLine s.name (.buffer cpu cause) :: d.logs }
  | (.sample raw, t) =>
    let d := drain t
    { d with drained := d.drained + 1, logs := sampleLines raw ++ d.logs }
termination_by s.queue.length
decreasing_by
  · simp [Stream.queue_of_read (x := .fault _ _) _h]
  · simp [Stream.queue_of_read (x := .bytes _) _h]

/-- An open stream with an empty `queue` is not drained any further. -/
theorem drain_nil {s : Stream} (hr : s.hasReader = true) (hc : s.closed = false)
    (hq : s.queue = []) : drain s = { stream := s } := by
  have h := Stream.read_nil hr hc hq
  rw [drain]
  -- The answer is "pending" or "closed", as there is a sender or not.
  cases hs : s.hasSender
  all_goals
    rw [hs] at h
    split
    all_goals simp_all

/-- A sample is counted, whatever it holds. -/
theorem drain_bytes {s : Stream} {raw : List UInt8} {rest : List Sample}
    (hr : s.hasReader = true) (hc : s.closed = false) (hq : s.queue = .bytes raw :: rest) :
    drain s =
      let d := drain { s with queue := rest }
      { d with drained := d.drained + 1, logs := sampleLines raw ++ d.logs } := by
  have h := Stream.read_cons hr hc hq
  rw [drain]
  split <;> simp_all [Stream.Answer.ofSample]

/-- A failed read is told by `faultLine` and not counted, and the rest of the `queue` is drained. -/
theorem drain_fault {s : Stream} {cpu : Nat} {cause : PerfError} {rest : List Sample}
    (hr : s.hasReader = true) (hc : s.closed = false) (hq : s.queue = .fault cpu cause :: rest) :
    drain s =
      let d := drain { s with queue := rest }
      { d with logs := faultLine s.name (.buffer cpu cause) :: d.logs } := by
  have h := Stream.read_cons hr hc hq
  rw [drain]
  split <;> simp_all [Stream.Answer.ofSample]

/-- The line on the end of the stream. -/
def endLine (name : String) (drained : Nat) : Log.Line :=
  .debug (name ++ " drained " ++ drained.repr ++ " record(s)")

/-- Reads a stream to its end. -/
def run (s : Stream) : Drainage :=
  let d := drain s
  { d with logs := d.logs ++ [endLine s.name d.drained] }

end Drainage

end EgressControl
