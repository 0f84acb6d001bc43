import EgressControl.Error.Kernel

/-! # Streams of samples

A `Stream` carries the raw samples of one perf event array from the tasks that read the buffers
to the one that looks at the samples.  It is a queue of limited capacity between a sender and a
reader.  It can be closed at any time and by anyone; that cannot be undone, and nothing is read
from it afterwards, not even what is still in the queue. -/

namespace EgressControl

/-- What a stream carries: the bytes of a sample, or the failure of a read on one processor. -/
inductive Sample where
  | bytes (raw : List UInt8)
  | fault (cpu : Nat) (cause : PerfError)
  deriving DecidableEq

/-- A stream of samples. -/
structure Stream where
  name : String
  /-- The number of samples for which the queue has room. -/
  capacity : Nat
  /-- The samples on their way, oldest first. -/
  queue : List Sample := []
  hasSender : Bool := true
  hasReader : Bool := true
  closed : Bool := false

namespace Stream

/-- The capacity of the streams that are fed by perf buffers. -/
def perfCapacity : Nat := 1024

/-- What becomes of a sample that is sent. -/
inductive Sent where
  | sent
  | full
  | noReader
  | noSender
  deriving DecidableEq, Repr

/-- Sends a sample. -/
def send (s : Stream) (x : Sample) : Sent × Stream :=
  if !s.hasSender then (.noSender, s)
  else if !s.hasReader then (.noReader, s)
  else if s.queue.length ≥ s.capacity then (.full, s)
  else (.sent, { s with queue := s.queue ++ [x] })

/-- What a read gives. -/
inductive Answer where
  | sample (raw : List UInt8)
  | failed (e : ReadError)
  /-- There is nothing to read yet. -/
  | pending
  | noReader
  deriving DecidableEq

/-- A sample as its reader sees it. -/
def Answer.ofSample : Sample → Answer
  | .bytes raw => sample raw
  | .fault cpu cause => failed (.buffer cpu cause)

/-- Reads the next sample. -/
def read (s : Stream) : Answer × Stream :=
  if !s.hasReader then (.noReader, s)
  else if s.closed then (.failed .closed, s)
  else
    match s.queue with
    | x :: rest => (.ofSample x, { s with queue := rest })
    | [] => (if s.hasSender then .pending else .failed .closed, s)

/-- Closes the stream. -/
def close (s : Stream) : Stream := { s with closed := true }

/-- The sender goes away; what it has sent can still be read. -/
def dropSender (s : Stream) : Stream := { s with hasSender := false }

/-- The reader goes away, and with it what has not been read. -/
def dropReader (s : Stream) : Stream :=
  if s.hasReader then { s with hasReader := false, closed := true, queue := [] } else s

/-- A stream in which some samples wait and to which no more will be sent. -/
def holding (name : String) (samples : List Sample) : Stream :=
  { name, capacity := perfCapacity, queue := samples, hasSender := false }

/-- Nothing is read from a closed stream. -/
theorem read_of_closed {s : Stream} (hr : s.hasReader = true) (hc : s.closed = true) :
    s.read = (.failed .closed, s) := by
  simp [read, hr, hc]

/-- An open stream gives its oldest sample. -/
theorem read_cons {s : Stream} {x : Sample} {rest : List Sample} (hr : s.hasReader = true)
    (hc : s.closed = false) (hq : s.queue = x :: rest) :
    s.read = (.ofSample x, { s with queue := rest }) := by
  simp [read, hr, hc, hq]

/-- An open stream with an empty `queue` is pending as long as it has a sender, and has ended
otherwise. -/
theorem read_nil {s : Stream} (hr : s.hasReader = true) (hc : s.closed = false)
    (hq : s.queue = []) :
    s.read = (if s.hasSender then .pending else .failed .closed, s) := by
  simp [read, hr, hc, hq]

/-- A read that gives a sample or a fault takes it off the front of the `queue`. -/
theorem queue_of_read {s t : Stream} {x : Sample} (h : s.read = (.ofSample x, t)) :
    s.queue = x :: t.queue := by
  unfold read at h
  -- Without a reader, closed, or with nothing waiting, the answer is that of no sample.
  split at h
  · cases x <;> simp [Answer.ofSample] at h
  split at h
  · cases x <;> simp [Answer.ofSample] at h
  split at h
  · next y rest hqueue =>
    obtain ⟨hanswer, rfl⟩ := Prod.mk.inj h
    have hsame : y = x := by
      cases y <;> cases x <;> simp_all [Answer.ofSample]
    rw [hqueue, hsame]
  · cases x <;> by_cases hsender : s.hasSender = true <;> simp [Answer.ofSample, hsender] at h

end Stream

end EgressControl
