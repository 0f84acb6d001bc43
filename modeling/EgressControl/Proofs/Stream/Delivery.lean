import EgressControl.FanIn
import Mathlib.Data.List.Induction

/-!
# What a stream delivers

`Stream.Step` lists all that can be done to a stream, by its sender, by its reader and by those who
may close it, and `Stream.run` does it step by step.  A `Stream.Course` also remembers what the
stream has accepted and what it has returned.

- `next_send`, `next_read`: sending and reading change nothing but the queue;
- `queue_next`: by one step nothing is lost and nothing comes twice, as long as there is a reader;
- `Course.Kept`: the flags of a stream tell which steps have been taken, and what has been accepted
  has been returned or waits, in one order; every run keeps this (`kept_run`);
- `run_returns_accepted_in_order_until_closed`: the laws of the queue, for every order of the steps.
-/

namespace EgressControl.Stream

/-- What can be done to a stream. -/
inductive Step where
  | send (x : Sample)
  | read
  | close
  /-- The stream is closed through a handle, which anyone may hold. -/
  | closeByHandle
  | dropSender
  | dropReader
  deriving DecidableEq

/-- The steps by which a stream is closed; a reader that goes closes it, too. -/
def Step.closes : Step → Bool
  | close | closeByHandle | dropReader => true
  | send _ | read | dropSender => false

/-- The stream after a step. -/
def next (s : Stream) : Step → Stream
  | .send x => (s.send x).2
  | .read => s.read.2
  | .close | .closeByHandle => s.close
  | .dropSender => s.dropSender
  | .dropReader => s.dropReader

/-- What the stream accepts by a step. -/
def accepts (s : Stream) : Step → Option Sample
  | .send x => if (s.send x).1 = .sent then some x else none
  | .read | .close | .closeByHandle | .dropSender | .dropReader => none

/-- What the stream returns by a step. -/
def returns (s : Stream) : Step → Option Sample
  | .read => FanIn.received s.read.1
  | .send _ | .close | .closeByHandle | .dropSender | .dropReader => none

/-- A stream into which nothing has been sent. -/
def channel (name : String) (capacity : Nat) : Stream := { name, capacity }

/-- A stream, and what has gone into it and come out of it. -/
structure Course where
  stream : Stream
  accepted : List Sample := []
  returned : List Sample := []

def Course.step (c : Course) (x : Step) : Course where
  stream := c.stream.next x
  accepted := c.accepted ++ (c.stream.accepts x).toList
  returned := c.returned ++ (c.stream.returns x).toList

/-- The steps of a list are taken, one after the other. -/
def run (s : Stream) (steps : List Step) : Course := steps.foldl Course.step { stream := s }

/-- A longer run goes on where a shorter one has ended. -/
private theorem run_append (s : Stream) (steps more : List Step) :
    s.run (steps ++ more) = more.foldl Course.step (s.run steps) := List.foldl_append

variable {s : Stream}

/-! ## The answers -/

/-- A sample that is read is received. -/
@[simp] theorem received_ofSample (x : Sample) : FanIn.received (.ofSample x) = some x := by
  cases x <;> rfl

/-- A sample is no answer that there is nothing yet. -/
@[simp] theorem ofSample_ne_pending (x : Sample) : Answer.ofSample x ≠ .pending := by
  cases x <;> simp [Answer.ofSample]

/-- A sample is no answer that the stream has ended. -/
@[simp] theorem ofSample_ne_closed (x : Sample) : Answer.ofSample x ≠ .failed .closed := by
  cases x <;> simp [Answer.ofSample]

/-- `send` finds the stream full exactly if it has both of its ends and no room. -/
private theorem send_eq_full_iff {x : Sample} :
    (s.send x).1 = .full ↔
      s.hasSender = true ∧ s.hasReader = true ∧ s.capacity ≤ s.queue.length := by
  unfold send
  cases s.hasSender with
  | false => simp
  | true =>
    cases s.hasReader with
    | false => simp
    | true => by_cases hfull : s.capacity ≤ s.queue.length <;> simp [hfull]

/-- `read` is pending exactly if the stream is open and empty and has a sender. -/
private theorem read_eq_pending_iff (hr : s.hasReader = true) :
    s.read.1 = .pending ↔ s.closed = false ∧ s.queue = [] ∧ s.hasSender = true := by
  cases hc : s.closed with
  | true => simp [read_of_closed hr hc]
  | false =>
    cases hq : s.queue with
    | nil => cases hs : s.hasSender <;> simp [read_nil hr hc hq, hs]
    | cons x rest => simp [read_cons hr hc hq]

/-- `read` finds the end exactly if the stream is closed, or empty and without a sender. -/
private theorem read_eq_closed_iff (hr : s.hasReader = true) :
    s.read.1 = .failed .closed ↔ s.closed = true ∨ (s.queue = [] ∧ s.hasSender = false) := by
  cases hc : s.closed with
  | true => simp [read_of_closed hr hc]
  | false =>
    cases hq : s.queue with
    | nil => cases hs : s.hasSender <;> simp [read_nil hr hc hq, hs]
    | cons x rest => simp [read_cons hr hc hq]

/-! ## What a step changes -/

/-- What is accepted goes to the end of the queue, and nothing else changes. -/
theorem next_send (s : Stream) (x : Sample) :
    s.next (.send x) = { s with queue := s.queue ++ (s.accepts (.send x)).toList } := by
  simp only [next, accepts, send]
  split
  · simp
  · split
    · simp
    · split <;> simp

/-- What is returned comes from the front of the queue, and nothing else changes. -/
theorem next_read (s : Stream) : ∃ rest,
    s.queue = (s.returns .read).toList ++ rest ∧ s.next .read = { s with queue := rest } := by
  simp only [next, returns, read]
  split
  · -- There is no reader.
    exact ⟨s.queue, rfl, rfl⟩
  · split
    · -- The stream is closed, whatever waits in it.
      exact ⟨s.queue, rfl, rfl⟩
    · split
      · next x rest hq => exact ⟨rest, by simpa using hq, rfl⟩
      · -- The queue is empty, so that only the answer depends on the sender.
        refine ⟨s.queue, ?_, rfl⟩
        split <;> rfl

/-- A `read` that is `pending` has returned nothing, and leaves the stream as it is. -/
private theorem read_of_pending (h : s.read.1 = .pending) : s.read.2 = s := by
  obtain ⟨rest, hqueue, hnext⟩ := s.next_read
  have hnone : s.returns .read = none := by rw [returns, h]; rfl
  rw [hnone] at hqueue
  rw [show s.read.2 = s.next .read from rfl, hnext, ← List.nil_append rest]
  exact congrArg (fun queue => { s with queue }) hqueue.symm

/-- The reader closes its stream when it goes, and what waits there is lost. -/
private theorem next_dropReader (hr : s.hasReader = true) :
    s.next .dropReader = { s with hasReader := false, closed := true, queue := [] } := if_pos hr

/-- A reader goes only once. -/
private theorem next_dropReader_of_gone (hr : s.hasReader = false) : s.next .dropReader = s := by
  simp [next, dropReader, hr]

/-- No step changes the `capacity`. -/
theorem capacity_next (s : Stream) (x : Step) : (s.next x).capacity = s.capacity := by
  cases x with
  | send y => rw [next_send]
  | read =>
    obtain ⟨rest, -, hnext⟩ := s.next_read
    rw [hnext]
  | close | closeByHandle | dropSender => rfl
  | dropReader => cases hr : s.hasReader <;> simp [next, dropReader, hr]

/-- The sender is lost by the step `dropSender` alone. -/
private theorem hasSender_next (s : Stream) (x : Step) :
    (s.next x).hasSender = true ↔ s.hasSender = true ∧ x ≠ .dropSender := by
  cases x with
  | send y => simp [next_send]
  | read =>
    obtain ⟨rest, -, hnext⟩ := s.next_read
    simp [hnext]
  | close | closeByHandle | dropSender => simp [next, close, dropSender]
  | dropReader => cases hr : s.hasReader <;> simp [next, dropReader, hr]

/-- The reader is lost by the step `dropReader` alone. -/
theorem hasReader_next (s : Stream) (x : Step) :
    (s.next x).hasReader = true ↔ s.hasReader = true ∧ x ≠ .dropReader := by
  cases x with
  | send y => simp [next_send]
  | read =>
    obtain ⟨rest, -, hnext⟩ := s.next_read
    simp [hnext]
  | close | closeByHandle | dropSender => simp [next, close, dropSender]
  | dropReader => cases hr : s.hasReader <;> simp [next, dropReader, hr]

/-- A stream is closed by the steps that close it, and by no others.  A reader that has gone before
has closed it then. -/
theorem closed_next (h : s.hasReader = false → s.closed = true) (x : Step) :
    (s.next x).closed = true ↔ s.closed = true ∨ x.closes = true := by
  cases x with
  | send y => simp [next_send, Step.closes]
  | read =>
    obtain ⟨rest, -, hnext⟩ := s.next_read
    simp [hnext, Step.closes]
  | close | closeByHandle | dropSender => simp [next, close, dropSender, Step.closes]
  -- A reader that is gone already has closed the stream, which is the hypothesis.
  | dropReader =>
    cases hr : s.hasReader with
    | true => simp [next_dropReader hr, Step.closes]
    | false => simp [next_dropReader_of_gone hr, h hr, Step.closes]

/-- A stream without a reader is closed after any step. -/
theorem closed_next_of_gone (h : s.hasReader = false → s.closed = true) {x : Step}
    (hr : (s.next x).hasReader = false) : (s.next x).closed = true := by
  rw [closed_next h]
  by_cases hx : x = .dropReader
  · exact .inr (by rw [hx]; rfl)
  · refine .inl (h (Bool.not_eq_true _ ▸ fun hbefore => ?_))
    exact absurd ((hasReader_next s x).mpr ⟨hbefore, hx⟩) (by simp [hr])

/-- What has been sent had room. -/
theorem room_of_sent {x : Sample} (h : (s.send x).1 = .sent) : s.queue.length < s.capacity := by
  unfold send at h
  split at h
  · simp at h
  · split at h
    · simp at h
    · split at h
      · simp at h
      · next hroom => exact Nat.lt_of_not_ge hroom

/-- No step makes the `queue` longer than the `capacity`. -/
theorem length_queue_next (h : s.queue.length ≤ s.capacity) (x : Step) :
    (s.next x).queue.length ≤ s.capacity := by
  cases x with
  | send y =>
    simp only [next_send, accepts, List.length_append]
    split
    · -- There was room for one more before the step.
      next hsent => exact room_of_sent hsent
    · simpa using h
  | read =>
    obtain ⟨rest, hqueue, hnext⟩ := s.next_read
    have hlength := congrArg List.length hqueue
    rw [List.length_append] at hlength
    simp only [hnext]
    omega
  | close | closeByHandle | dropSender => exact h
  | dropReader =>
    cases hr : s.hasReader with
    | true => simp [next_dropReader hr]
    | false => rwa [next_dropReader_of_gone hr]

/-- What waits and what is accepted is returned or still waits, in the same order. -/
theorem queue_next {x : Step} (hx : x ≠ .dropReader) :
    s.queue ++ (s.accepts x).toList = (s.returns x).toList ++ (s.next x).queue := by
  cases x with
  | send y => simp [next_send, returns]
  | read =>
    obtain ⟨rest, hqueue, hnext⟩ := s.next_read
    simp [hnext, accepts, hqueue]
  | close | closeByHandle | dropSender => simp [next, close, dropSender, accepts, returns]
  | dropReader => exact absurd rfl hx

/-- Nothing is returned without a reader. -/
theorem returns_of_gone {x : Step} (h : (s.next x).hasReader = false) : s.returns x = none := by
  cases x with
  | read =>
    obtain ⟨rest, -, hnext⟩ := s.next_read
    -- A read leaves the reader as it is.
    have hr : s.hasReader = false := by rwa [hnext] at h
    simp [returns, read, hr, FanIn.received]
  | send _ | close | closeByHandle | dropSender | dropReader => rfl

/-- A closed stream returns no sample. -/
private theorem returns_of_closed (h : s.closed = true) (x : Step) : s.returns x = none := by
  cases x with
  | read =>
    -- A closed stream is not asked for its queue, with or without a reader.
    simp only [returns, read, h, if_true]
    split <;> rfl
  | send _ | close | closeByHandle | dropSender | dropReader => rfl

/-- Nothing comes into an empty stream without a sender. -/
private theorem queue_next_of_ended (hq : s.queue = []) (hs : s.hasSender = false) (x : Step) :
    (s.next x).queue = [] := by
  cases x with
  -- Only a send could fill the queue, and there is no sender.
  | send y => simp [next_send, accepts, send, hq, hs]
  | read =>
    obtain ⟨rest, hqueue, hnext⟩ := s.next_read
    rw [hq] at hqueue
    rw [hnext]
    exact (List.append_eq_nil_iff.mp hqueue.symm).2
  | close | closeByHandle | dropSender => exact hq
  | dropReader =>
    cases hr : s.hasReader with
    | true => rw [next_dropReader hr]
    | false => rwa [next_dropReader_of_gone hr]

/-! ## The course of a run -/

namespace Course

/-- The stream of a course tells which steps have been taken, and keeps what has been accepted until
it is returned. -/
structure Kept (capacity : Nat) (steps : List Step) (c : Course) : Prop where
  capacity_eq : c.stream.capacity = capacity
  sender : c.stream.hasSender = true ↔ .dropSender ∉ steps
  reader : c.stream.hasReader = true ↔ .dropReader ∉ steps
  closed : c.stream.closed = true ↔ ∃ x ∈ steps, x.closes = true
  room : c.stream.queue.length ≤ c.stream.capacity
  -- A reader that goes away takes the queue with it, so that afterwards only `in_order` is left.
  balance : c.stream.hasReader = true → c.accepted = c.returned ++ c.stream.queue
  in_order : c.returned <+: c.accepted

variable {capacity : Nat} {steps : List Step} {c : Course}

/-- A stream whose reader has gone is closed. -/
theorem Kept.closed_of_gone (h : Kept capacity steps c) (hr : c.stream.hasReader = false) :
    c.stream.closed = true := by
  have hdropped : .dropReader ∈ steps := by
    by_contra hnot
    exact absurd (h.reader.mpr hnot) (by simp [hr])
  exact h.closed.mpr ⟨_, hdropped, rfl⟩

/-- `Kept` is kept by one more step. -/
private theorem Kept.step (h : Kept capacity steps c) (x : Step) :
    Kept capacity (steps ++ [x]) (c.step x) where
  capacity_eq := (capacity_next c.stream x).trans h.capacity_eq
  sender := by
    rw [Course.step, hasSender_next, h.sender]
    simp [eq_comm]
  reader := by
    rw [Course.step, hasReader_next, h.reader]
    simp [eq_comm]
  closed := by
    rw [Course.step, closed_next h.closed_of_gone, h.closed]
    simp [or_and_right, exists_or]
  room := by
    rw [Course.step, capacity_next]
    exact length_queue_next h.room x
  balance := by
    intro hr
    obtain ⟨hbefore, hx⟩ := (hasReader_next c.stream x).mp hr
    rw [Course.step, h.balance hbefore, List.append_assoc, queue_next hx, List.append_assoc]
  in_order := by
    cases hr : (c.stream.next x).hasReader with
    | true =>
      obtain ⟨hbefore, hx⟩ := (hasReader_next c.stream x).mp hr
      -- What is missing to all that has been accepted is what waits.
      refine ⟨(c.stream.next x).queue, ?_⟩
      rw [Course.step, h.balance hbefore, List.append_assoc, List.append_assoc, queue_next hx]
    | false =>
      -- Nothing more is returned, whatever is accepted.
      rw [Course.step, returns_of_gone hr]
      simpa using h.in_order.trans (List.prefix_append _ _)

/-- `Kept` is true after any steps on a new stream. -/
theorem kept_run (name : String) (capacity : Nat) (steps : List Step) :
    Kept capacity steps ((channel name capacity).run steps) := by
  -- By induction from the end, since the invariant speaks of all the steps that have been taken.
  induction steps using List.reverseRecOn with
  | nil =>
    constructor <;> simp [run, channel]
  | append_singleton steps x ih =>
    rw [run_append]
    exact ih.step x

/-- A closed stream stays closed, and returns nothing more. -/
private theorem Kept.foldl_of_closed (h : Kept capacity steps c) (hc : c.stream.closed = true)
    (more : List Step) :
    (more.foldl Course.step c).stream.closed = true ∧
      (more.foldl Course.step c).returned = c.returned := by
  -- The steps that have been taken grow, since a reader may go at any of those to come.
  induction more generalizing steps c with
  | nil => exact ⟨hc, rfl⟩
  | cons x more ih =>
    have hnext : (c.step x).stream.closed = true :=
      (closed_next h.closed_of_gone x).mpr (.inl hc)
    have hreturned : (c.step x).returned = c.returned := by
      rw [Course.step, returns_of_closed hc]
      exact List.append_nil _
    rw [← hreturned]
    exact ih (h.step x) hnext

/-- A stream from which all has been read stays empty if there is no sender. -/
private theorem queue_foldl_of_ended (hq : c.stream.queue = []) (hs : c.stream.hasSender = false)
    (more : List Step) :
    (more.foldl Course.step c).stream.queue = [] ∧
      (more.foldl Course.step c).stream.hasSender = false := by
  induction more generalizing c with
  | nil => exact ⟨hq, hs⟩
  | cons x more ih =>
    have hnot : ¬(c.stream.next x).hasSender = true := fun hsender => by
      have hbefore := ((hasSender_next c.stream x).mp hsender).1
      exact absurd (hs.symm.trans hbefore) (by decide)
    exact ih (queue_next_of_ended hq hs x) (Bool.not_eq_true _ ▸ hnot)

end Course

/-- The laws of a bounded queue between a sender and a reader that can be closed at any time.
`steps` are the steps that have been taken on a new stream with the given `capacity`, and `c` is the
`Course` that has come of them. -/
structure Delivers (name : String) (capacity : Nat) (steps : List Step) (c : Course) : Prop where
  /-- First in, first out: `returned` is a prefix of `accepted`. -/
  in_order : c.returned <+: c.accepted
  /-- Unless `dropReader` has been taken, each sample in `accepted` has been returned or stands in
  the `queue`. -/
  kept : .dropReader ∉ steps → c.accepted = c.returned ++ c.stream.queue
  /-- `send` answers `full` exactly if neither `dropSender` nor `dropReader` has been taken, and
  `capacity` samples have been accepted and not returned. -/
  full_iff : ∀ x, (c.stream.send x).1 = .full ↔
    .dropSender ∉ steps ∧ .dropReader ∉ steps ∧
      c.accepted.length = c.returned.length + capacity
  /-- Unless `dropReader` has been taken, `read` is `pending` exactly if no step `closes` the
  stream, the `queue` is empty, and `dropSender` has not been taken. -/
  pending_iff : .dropReader ∉ steps → (c.stream.read.1 = .pending ↔
    (∀ x ∈ steps, x.closes = false) ∧ c.stream.queue = [] ∧ .dropSender ∉ steps)
  /-- A `read` that is `pending` leaves the stream as it is. -/
  pending_waits : c.stream.read.1 = .pending → c.stream.read.2 = c.stream
  /-- Unless `dropReader` has been taken, `read` answers `closed` exactly if a step `closes` the
  stream, or the `queue` is empty and `dropSender` has been taken. -/
  ended_iff : .dropReader ∉ steps → (c.stream.read.1 = .failed .closed ↔
    (∃ x ∈ steps, x.closes = true) ∨ (c.stream.queue = [] ∧ .dropSender ∈ steps))
  /-- As long as no step `closes` the stream, `read` gives the first sample of `accepted` that has
  not been returned, even after `dropSender`. -/
  delivered : (∀ x ∈ steps, x.closes = false) →
    ∀ x, c.accepted[c.returned.length]? = some x → c.stream.read.1 = .ofSample x
  /-- Once a step `closes` the stream, no steps return anything more: what stands in the `queue` is
  lost. -/
  discarded : (∃ x ∈ steps, x.closes = true) →
    ∀ more, ((channel name capacity).run (steps ++ more)).returned = c.returned
  /-- Once `read` answers `closed`, it does so after any further steps without `dropReader`. -/
  ended_stays : c.stream.read.1 = .failed .closed → ∀ more, .dropReader ∉ steps ++ more →
    ((channel name capacity).run (steps ++ more)).stream.read.1 = .failed .closed
  /-- The flag `closed` is set exactly by the steps that `closes` lists. -/
  closed_iff : c.stream.closed = true ↔ ∃ x ∈ steps, x.closes = true

/-- `Delivers` is true of a new stream after any list of `send`, `read`, `close`, `closeByHandle`,
`dropSender` and `dropReader`. -/
theorem run_returns_accepted_in_order_until_closed (name : String) (capacity : Nat)
    (steps : List Step) :
    Delivers name capacity steps ((channel name capacity).run steps) := by
  have h := Course.kept_run name capacity steps
  generalize hcourse : (channel name capacity).run steps = c at h
  have hsender : c.stream.hasSender = false ↔ .dropSender ∈ steps := by
    rw [← Bool.not_eq_true, h.sender, not_not]
  have hclosed : c.stream.closed = false ↔ ∀ x ∈ steps, x.closes = false := by
    rw [← Bool.not_eq_true, h.closed]
    simp
  constructor
  case in_order => exact h.in_order
  case kept => exact fun hreader => h.balance (h.reader.mpr hreader)
  case full_iff =>
    intro x
    rw [send_eq_full_iff, h.sender, h.reader]
    refine and_congr_right fun _ => and_congr_right fun hreader => ?_
    -- What waits is what has been accepted less what has been returned.
    have hlength := congrArg List.length (h.balance (h.reader.mpr hreader))
    have hroom := h.room
    have hcapacity := h.capacity_eq
    rw [List.length_append] at hlength
    omega
  case pending_iff =>
    intro hreader
    rw [read_eq_pending_iff (h.reader.mpr hreader), hclosed, h.sender]
  case pending_waits => exact read_of_pending
  case ended_iff =>
    intro hreader
    rw [read_eq_closed_iff (h.reader.mpr hreader), h.closed, hsender]
  case delivered =>
    intro hopen x hx
    have hc : c.stream.closed = false := hclosed.mpr hopen
    have hr : c.stream.hasReader = true := by
      by_contra hgone
      exact absurd (h.closed_of_gone (by simpa using hgone)) (by simp [hc])
    -- The next sample is the first of those that wait.
    rw [h.balance hr, List.getElem?_append_right (Nat.le_refl _), Nat.sub_self] at hx
    cases hq : c.stream.queue with
    | nil => simp [hq] at hx
    | cons y rest =>
      obtain rfl : y = x := by simpa [hq] using hx
      rw [read_cons hr hc hq]
  case discarded =>
    intro hcloses more
    rw [run_append, hcourse]
    exact (h.foldl_of_closed (h.closed.mpr hcloses) more).2
  case ended_stays =>
    intro hended more hreader
    have hafter := Course.kept_run name capacity (steps ++ more)
    have hr : c.stream.hasReader = true :=
      h.reader.mpr fun hdropped => hreader (List.mem_append_left _ hdropped)
    rw [read_eq_closed_iff (hafter.reader.mpr hreader), run_append, hcourse]
    -- Each of the two ways in which a stream ends is for ever.
    rcases (read_eq_closed_iff hr).mp hended with hc | ⟨hq, hs⟩
    · exact .inl (h.foldl_of_closed hc more).1
    · exact .inr (Course.queue_foldl_of_ended hq hs more)
  case closed_iff => exact h.closed

end EgressControl.Stream
