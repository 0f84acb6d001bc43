import EgressControl.Proofs.Stream.Delivery
import Mathlib.Data.List.Nodup

/-!
# What comes out of many buffers

`FanIn.run` takes a list of steps, which is one interleaving of the pumps (`fetch`, `push`, `stop`),
of the reader (`read`, `dropReader`) and of whoever closes the stream (`close`).  An `Origin` says
from which pump a record comes, and which of the records of its buffer it is.

- `Pump.Moves`: what a pump does, whatever it does, moves at most one record into the stream;
- `Goes`: what any step does to the queue and to what the pumps have still to push;
- `Kept`: the origins of all that has been pushed; every run keeps this (`Kept.run`);
- `Live`: as long as the stream is open, every pump is running;
- `step_streamSteps`: to the stream, a step of a fan-in is a list of steps of a stream;
- `received_run_merges_prefixes`: what the reader has received is a merge of prefixes of `records`,
  one for each buffer, and the rest of `records` is still on its way.
-/

namespace EgressControl

namespace Pump

/-- What a pump has still to push: what is left of its last read, and all that is yet to be read. -/
def remaining (p : Pump) : List Sample := p.batch ++ p.reads.flatMap (BufferRead.samples p.cpu)

/-- A pump moves at most one record into the stream, and only if there is room.  It goes on as long
as the stream is open and has both of its ends. -/
structure Moves (p : Pump) (s : Stream) (sent : Option Sample) (after : Pump × Stream) : Prop where
  remaining : p.remaining = sent.toList ++ after.1.remaining
  stream : after.2 = { s with queue := s.queue ++ sent.toList }
  room : sent.isSome = true → s.queue.length < s.capacity
  running : s.closed = false → s.hasSender = true → s.hasReader = true →
    after.1.running = p.running

/-- `fetch` takes the next read over into the batch, and moves nothing into the stream. -/
private theorem moves_fetch (p : Pump) (s : Stream) : Moves p s none (p.fetch, s) where
  remaining := by
    unfold fetch
    split
    · next hbatch hreads => simp [Pump.remaining, hbatch, hreads]
    · rfl
  stream := by simp
  room := by simp
  running := by
    unfold fetch
    split <;> simp

/-- `stop` moves nothing, and ends a pump only if its stream is closed. -/
private theorem moves_stop (p : Pump) (s : Stream) : Moves p s none (p.stop s, s) where
  remaining := by
    unfold stop
    split <;> rfl
  stream := by simp
  room := by simp
  running := by
    intro hopen
    simp [stop, hopen]

/-- A pump with nothing to push, or before a full stream, stays as it is; it sends the next of its
records, or comes to its end because the stream has lost one of its ends. -/
private theorem push_cases (p : Pump) (s : Stream) :
    p.push s = (p, s) ∨
    (∃ x rest, p.batch = x :: rest ∧ (s.send x).1 = .sent ∧
      p.push s = ({ p with batch := rest }, s.next (.send x))) ∨
    ((s.hasSender = false ∨ s.hasReader = false) ∧
      p.push s = ({ p with running := false }, s)) := by
  unfold push
  cases hbatch : p.batch with
  | nil => exact .inl rfl
  | cons x rest =>
    simp only [Stream.next, Stream.send]
    cases hs : s.hasSender with
    | false => exact .inr (.inr ⟨.inl rfl, rfl⟩)
    | true =>
      cases hr : s.hasReader with
      | false => exact .inr (.inr ⟨.inr rfl, rfl⟩)
      | true =>
        -- Before a full stream a pump keeps its record and tries again when its turn comes.
        by_cases hfull : s.queue.length ≥ s.capacity
        · exact .inl (by simp [hfull])
        · exact .inr (.inl ⟨x, rest, rfl, by simp [hfull], by simp [hfull]⟩)

/-- `push` moves the first record of the batch into the stream, or nothing. -/
private theorem moves_push (p : Pump) (s : Stream) : ∃ sent, Moves p s sent (p.push s) := by
  rcases p.push_cases s with heq | ⟨x, rest, hbatch, hsent, heq⟩ | ⟨hend, heq⟩ <;> rw [heq]
  · exact ⟨none, rfl, by simp, by simp, by simp⟩
  · have hroom := Stream.room_of_sent hsent
    refine ⟨some x, by simp [Pump.remaining, hbatch], ?_, fun _ => hroom, by simp⟩
    rw [Stream.next_send, Stream.accepts, if_pos hsent]
  · -- The record that could not be sent is still the pump's.
    refine ⟨none, rfl, by simp, by simp, fun _ hs hr => ?_⟩
    simp [hs, hr] at hend

end Pump

namespace FanIn

/-- Where a record comes from. -/
structure Origin where
  /-- The number of the pump that pushes it. -/
  pump : Nat
  /-- The number of records that its buffer gives before it. -/
  place : Nat
  deriving DecidableEq

/-- The records that a buffer gives, one read after the other. -/
def records (buffer : Nat × List BufferRead) : List Sample :=
  buffer.2.flatMap (BufferRead.samples buffer.1)

/-- The records of the buffer of a pump, if there is such a pump. -/
def recordsAt (buffers : List (Nat × List BufferRead)) (pump : Nat) : List Sample :=
  buffers[pump]?.elim [] records

/-- The record with an origin. -/
def Origin.record? (buffers : List (Nat × List BufferRead)) (o : Origin) : Option Sample :=
  (recordsAt buffers o.pump)[o.place]?

/-- The places of the records that come from one pump. -/
def places (pump : Nat) (origins : List Origin) : List Nat :=
  (origins.filter (·.pump = pump)).map (·.place)

/-- The places of records in two parts are those of the first part, and then those of the second
one. -/
private theorem places_append (pump : Nat) (os ps : List Origin) :
    places pump (os ++ ps) = places pump os ++ places pump ps := by
  simp [places]

@[simp] theorem places_nil (pump : Nat) : places pump [] = [] := rfl

@[simp] theorem places_singleton (pump : Nat) (o : Origin) :
    places pump [o] = if o.pump = pump then [o.place] else [] := by
  by_cases h : o.pump = pump <;> simp [places, h]

/-- What a pump of a fan-in has still to push. -/
def remaining (f : FanIn) (pump : Nat) : List Sample := f.pumps[pump]?.elim [] Pump.remaining

/-! ## What a step does -/

/-- `settle` looks at the pumps, and changes none of them. -/
@[simp] theorem settle_pumps (f : FanIn) : f.settle.pumps = f.pumps := by
  unfold settle
  split <;> rfl

/-- `settle` changes nothing but whether the stream has a sender. -/
private theorem settle_stream (f : FanIn) :
    ∃ hasSender, f.settle.stream = { f.stream with hasSender } := by
  unfold settle
  split
  · exact ⟨f.stream.hasSender, rfl⟩
  · exact ⟨false, rfl⟩

/-- What a step does.  A record is `sent` into the queue by `pump`, and the reader has `got` the one
at its front; the step may do either or neither. -/
structure Goes (f : FanIn) (x : Step) (pump : Nat) (sent got : Option Sample) (f' : FanIn) :
    Prop where
  capacity : f'.stream.capacity = f.stream.capacity
  room : f.stream.queue.length ≤ f.stream.capacity → f'.stream.queue.length ≤ f.stream.capacity
  reader : f'.stream.hasReader = true ↔ f.stream.hasReader = true ∧ x ≠ .dropReader
  closed : (f.stream.hasReader = false → f.stream.closed = true) →
    (f'.stream.closed = true ↔ f.stream.closed = true ∨ x = .close ∨ x = .dropReader)
  queue : x ≠ .dropReader → f.stream.queue ++ sent.toList = got.toList ++ f'.stream.queue
  gone : f'.stream.hasReader = false → got = none
  pumps : f'.pumps.length = f.pumps.length
  remaining : ∀ i, f.remaining i = (if i = pump then sent.toList else []) ++ f'.remaining i

/-- A turn of one pump, which moves at most one record, is a step of the fan-in that moves this
record (`Goes`). -/
private theorem goes_turn (f : FanIn) {x : Step} (hclose : x ≠ .close) (hx : x ≠ .dropReader)
    (pump : Nat)
    {act : Pump → Stream → Pump × Stream}
    (h : ∀ p, ∃ sent, Pump.Moves p f.stream sent (act p f.stream)) :
    ∃ sent, Goes f x pump sent none (f.turn pump act) := by
  have hidle : Goes f x pump none none f := by constructor <;> simp [hx, hclose]
  unfold turn
  cases hp : f.pumps[pump]? with
  | none => exact ⟨none, hidle⟩
  | some p =>
    by_cases hrunning : p.running = true
    · simp only [hrunning, if_true]
      obtain ⟨sent, hmoves⟩ := h p
      obtain ⟨hasSender, hsettle⟩ :=
        settle_stream { stream := (act p f.stream).2, pumps := f.pumps.set pump (act p f.stream).1 }
      rw [hmoves.stream] at hsettle
      refine ⟨sent, ?_⟩
      constructor
      case capacity => simp [hsettle, hmoves.stream]
      case room =>
        intro hroom
        rw [hmoves.stream, hsettle]
        cases sent with
        | none => simpa using hroom
        | some y => simpa [Nat.succ_le_iff] using hmoves.room rfl
      case reader => simp [hsettle, hmoves.stream, hx]
      case closed => simp [hsettle, hmoves.stream, hx, hclose]
      case queue => simp [hsettle, hmoves.stream]
      case gone => simp
      case pumps => simp
      case remaining =>
        intro i
        simp only [remaining, settle_pumps]
        -- The pump that takes its turn moves on by what it has sent, and no other pump moves.
        by_cases hi : i = pump
        · have hlt := (List.getElem?_eq_some_iff.mp hp).1
          rw [hi, List.getElem?_set_self hlt, if_pos rfl, hp]
          exact hmoves.remaining
        · simp [hi, List.getElem?_set_ne (Ne.symm hi)]
    · -- A pump that has ended takes no turn.
      simp only [hrunning]
      exact ⟨none, hidle⟩

/-- Every step sends at most one record, and gives the reader at most one. -/
private theorem goes_step (f : FanIn) (x : Step) :
    ∃ pump sent, Goes f x pump sent (f.step x).1 (f.step x).2 := by
  cases x with
  | fetch pump =>
    exact ⟨pump, f.goes_turn (by simp) (by simp) pump fun p => ⟨none, p.moves_fetch f.stream⟩⟩
  | push pump => exact ⟨pump, f.goes_turn (by simp) (by simp) pump fun p => p.moves_push f.stream⟩
  | stop pump =>
    exact ⟨pump, f.goes_turn (by simp) (by simp) pump fun p => ⟨none, p.moves_stop f.stream⟩⟩
  | read =>
    obtain ⟨rest, hqueue, hnext⟩ := f.stream.next_read
    refine ⟨0, none, ?_⟩
    constructor
    case room => exact fun hroom => Stream.length_queue_next hroom .read
    case gone =>
      intro hr
      have hnone : f.stream.returns .read = none := Stream.returns_of_gone hr
      exact hnone
    all_goals simp_all [step, Stream.next, Stream.returns, remaining]
  | close =>
    refine ⟨0, none, ?_⟩
    constructor <;> simp [step, Stream.close, remaining]
  | dropReader =>
    -- All the pumps end with the reader, and what they have still to push stays with them.
    obtain ⟨hasSender, hsettle⟩ := settle_stream
      { stream := f.stream.dropReader, pumps := f.pumps.map fun p => { p with running := false } }
    refine ⟨0, none, ?_⟩
    constructor
    case room =>
      intro hroom
      simp only [step, hsettle]
      exact Stream.length_queue_next hroom .dropReader
    case remaining =>
      intro i
      cases hp : f.pumps[i]? <;> simp [step, remaining, Pump.remaining, hp]
    case capacity =>
      simpa [step, hsettle, Stream.next] using Stream.capacity_next f.stream .dropReader
    case reader =>
      simpa [step, hsettle, Stream.next] using Stream.hasReader_next f.stream .dropReader
    case closed =>
      intro h
      simpa [step, hsettle, Stream.next, Stream.Step.closes] using Stream.closed_next h .dropReader
    all_goals simp [step]

/-- Settling is no step of the stream, or the one by which its sender goes. -/
private theorem settle_streamSteps (f : FanIn) :
    ∃ ys : List Stream.Step, f.settle.stream = ys.foldl Stream.next f.stream := by
  unfold settle
  split
  · exact ⟨[], rfl⟩
  · exact ⟨[.dropSender], rfl⟩

/-- A turn in which a pump does `act` is made of steps of the stream if `act` is. -/
private theorem turn_streamSteps (f : FanIn) (pump : Nat) {act : Pump → Stream → Pump × Stream}
    (h : ∀ p, ∃ ys : List Stream.Step, (act p f.stream).2 = ys.foldl Stream.next f.stream) :
    ∃ ys : List Stream.Step, (f.turn pump act).stream = ys.foldl Stream.next f.stream := by
  unfold turn
  split
  · exact ⟨[], rfl⟩
  · next p _ =>
    split
    · obtain ⟨ys, hact⟩ := h p
      -- The pump's own steps on the stream come first, those of settling after them.
      obtain ⟨zs, hsettle⟩ := settle_streamSteps
        { stream := (act p f.stream).2, pumps := f.pumps.set pump (act p f.stream).1 }
      exact ⟨ys ++ zs, by rw [List.foldl_append, ← hact]; exact hsettle⟩
    · exact ⟨[], rfl⟩

/-- Each step of a fan-in is made of steps of its stream. -/
theorem step_streamSteps (f : FanIn) (x : Step) :
    ∃ ys : List Stream.Step, (f.step x).2.stream = ys.foldl Stream.next f.stream := by
  cases x with
  | fetch pump => exact f.turn_streamSteps pump fun p => ⟨[], rfl⟩
  | push pump =>
    refine f.turn_streamSteps pump fun p => ?_
    rcases p.push_cases f.stream with heq | ⟨x, rest, -, -, heq⟩ | ⟨-, heq⟩ <;> rw [heq]
    · exact ⟨[], rfl⟩
    · exact ⟨[.send x], rfl⟩
    · exact ⟨[], rfl⟩
  | stop pump => exact f.turn_streamSteps pump fun p => ⟨[], rfl⟩
  | read => exact ⟨[.read], rfl⟩
  | close => exact ⟨[.close], rfl⟩
  | dropReader =>
    -- Without a reader the pumps stop, which may drop the sender after the reader.
    obtain ⟨zs, hsettle⟩ := settle_streamSteps
      { stream := f.stream.dropReader, pumps := f.pumps.map fun p => { p with running := false } }
    exact ⟨.dropReader :: zs, hsettle⟩

/-- `run` goes on where a shorter run has ended. -/
theorem run_append (f : FanIn) (steps more : List Step) :
    f.run (steps ++ more) =
      ((f.run steps).1 ++ ((f.run steps).2.run more).1, ((f.run steps).2.run more).2) := by
  induction steps generalizing f with
  | nil => rfl
  | cons x steps ih => simp only [List.cons_append, run, ih, List.append_assoc]

/-- A step takes the reader away only by `dropReader`. -/
theorem hasReader_step (f : FanIn) (x : Step) :
    (f.step x).2.stream.hasReader = true ↔ f.stream.hasReader = true ∧ x ≠ .dropReader := by
  obtain ⟨_, _, hgoes⟩ := f.goes_step x
  exact hgoes.reader

/-- A step closes the stream only by `close` and `dropReader`, unless the reader had gone without
closing it. -/
theorem closed_step {f : FanIn} (h : f.stream.hasReader = false → f.stream.closed = true)
    (x : Step) :
    (f.step x).2.stream.closed = true ↔ f.stream.closed = true ∨ x = .close ∨ x = .dropReader := by
  obtain ⟨_, _, hgoes⟩ := f.goes_step x
  exact hgoes.closed h

/-! ## Who is still there -/

/-- A stream is open only as long as its reader is there, and has a sender only as long as a pump is
running; every pump is running while the stream is open. -/
structure Live (f : FanIn) : Prop where
  abandoned : f.stream.hasReader = false → f.stream.closed = true
  sender : f.stream.hasSender = false → ∀ p ∈ f.pumps, p.running = false
  running : f.stream.closed = false → ∀ p ∈ f.pumps, p.running = true

namespace Live

variable {f : FanIn}

/-- `settle` keeps pumps and stream `Live`. -/
private theorem settle (h : Live f) : Live f.settle := by
  unfold FanIn.settle
  split
  · exact h
  · next hnone =>
    refine ⟨h.abandoned, fun _ p hp => ?_, h.running⟩
    have hnot : ¬∃ p ∈ f.pumps, p.running = true := by simpa using hnone
    exact Bool.eq_false_iff.mpr fun hrunning => hnot ⟨p, hp, hrunning⟩

/-- A turn of a pump that `Moves` keeps pumps and stream `Live`. -/
private theorem turn (h : Live f) (pump : Nat) {act : Pump → Stream → Pump × Stream}
    (hact : ∀ p, ∃ sent, Pump.Moves p f.stream sent (act p f.stream)) : Live (f.turn pump act) := by
  unfold FanIn.turn
  cases hp : f.pumps[pump]? with
  | none => exact h
  | some p =>
    by_cases hrunning : p.running = true
    · simp only [hrunning, if_true]
      obtain ⟨sent, hmoves⟩ := hact p
      have hmem : p ∈ f.pumps := List.mem_of_getElem? hp
      -- The pump that takes its turn keeps the sender.
      have hsender : f.stream.hasSender = true := by
        by_contra hgone
        have hstopped := h.sender (by simpa using hgone) p hmem
        simp [hrunning] at hstopped
      apply settle
      refine ⟨by simpa [hmoves.stream] using h.abandoned, by simp [hmoves.stream, hsender], ?_⟩
      intro hclosed q hq
      have hopen : f.stream.closed = false := by simpa [hmoves.stream] using hclosed
      -- A stream that is open has its reader.
      have hreader : f.stream.hasReader = true := by
        by_contra hgone
        have hshut := h.abandoned (by simpa using hgone)
        simp [hopen] at hshut
      -- The other pumps are as they were.
      rcases List.mem_or_eq_of_mem_set hq with hold | rfl
      · exact h.running hopen q hold
      · exact (hmoves.running hopen hsender hreader).trans hrunning
    · simpa [hrunning] using h

/-- Every step keeps pumps and stream `Live`. -/
private theorem step (h : Live f) (x : Step) : Live (f.step x).2 := by
  cases x with
  | fetch pump => exact h.turn pump fun p => ⟨none, p.moves_fetch f.stream⟩
  | push pump => exact h.turn pump fun p => p.moves_push f.stream
  | stop pump => exact h.turn pump fun p => ⟨none, p.moves_stop f.stream⟩
  | read =>
    obtain ⟨rest, -, hnext⟩ := f.stream.next_read
    simp only [Stream.next] at hnext
    simp only [FanIn.step, hnext]
    exact ⟨h.abandoned, h.sender, h.running⟩
  | close => exact ⟨fun _ => rfl, h.sender, by simp [FanIn.step, Stream.close]⟩
  | dropReader =>
    apply settle
    -- Only here is the reader given up; it closes the stream, and no pump runs on.
    have hclosed : f.stream.dropReader.closed = true :=
      (Stream.closed_next h.abandoned .dropReader).mpr (.inr rfl)
    refine ⟨fun _ => hclosed, ?_, by simp [hclosed]⟩
    intro _ p hp
    obtain ⟨q, -, rfl⟩ := List.mem_map.mp hp
    rfl

end Live

/-! ## What a run keeps -/

/-- What is true of a fan-in and of what its reader has received, after some steps.  `pushed` are
the origins of all the records that have gone into the stream. -/
structure Kept (buffers : List (Nat × List BufferRead)) (steps : List Step)
    (received : List Sample) (f : FanIn) (pushed : List Origin) : Prop where
  capacity : f.stream.capacity = Stream.perfCapacity
  room : f.stream.queue.length ≤ f.stream.capacity
  live : f.Live
  pumps : f.pumps.length = buffers.length
  reader : f.stream.hasReader = true ↔ .dropReader ∉ steps
  closed : f.stream.closed = true ↔ .close ∈ steps ∨ .dropReader ∈ steps
  -- A reader that goes away takes the queue with it, so that afterwards only `in_order` is left.
  balance : f.stream.hasReader = true →
    pushed.map (Origin.record? buffers) = (received ++ f.stream.queue).map some
  in_order : received.map some <+: pushed.map (Origin.record? buffers)
  /-- Every pump has pushed the first records of its buffer, and has still to push the others. -/
  placed : ∀ i, ∃ n, places i pushed = List.range n ∧ (recordsAt buffers i).drop n = f.remaining i

namespace Kept

variable {buffers : List (Nat × List BufferRead)} {steps : List Step} {received : List Sample}
  {f : FanIn} {pushed : List Origin}

/-- The next record that a pump pushes has the next place. -/
private theorem record?_next (h : Kept buffers steps received f pushed) {pump : Nat} {x : Sample}
    {rest : List Sample} (hremaining : f.remaining pump = x :: rest) :
    Origin.record? buffers ⟨pump, (places pump pushed).length⟩ = some x := by
  obtain ⟨n, hplaces, hdrop⟩ := h.placed pump
  have hget : ((recordsAt buffers pump).drop n)[0]? = some x := by rw [hdrop, hremaining]; rfl
  simpa [Origin.record?, hplaces] using hget

/-- `Kept` is kept by one more step, which may push a record. -/
private theorem step (h : Kept buffers steps received f pushed) (x : Step) :
    ∃ more, Kept buffers (steps ++ [x]) (received ++ (f.step x).1.toList) (f.step x).2
      (pushed ++ more) := by
  obtain ⟨pump, sent, hgoes⟩ := f.goes_step x
  let origin : Origin := ⟨pump, (places pump pushed).length⟩
  let more : List Origin := (sent.map fun _ => origin).toList
  -- What is pushed now is the record with the new origin.
  have hpushed : (pushed ++ more).map (Origin.record? buffers) =
      pushed.map (Origin.record? buffers) ++ sent.toList.map some := by
    rw [List.map_append]
    cases sent with
    | none => rfl
    | some y =>
      have hremaining := hgoes.remaining pump
      rw [if_pos rfl] at hremaining
      simp [more, origin, h.record?_next hremaining]
  refine ⟨more, ?_⟩
  constructor
  case capacity => exact hgoes.capacity.trans h.capacity
  case room =>
    rw [hgoes.capacity]
    exact hgoes.room h.room
  case live => exact h.live.step x
  case pumps => exact hgoes.pumps.trans h.pumps
  case reader =>
    rw [hgoes.reader, h.reader]
    simp [eq_comm]
  case closed =>
    -- `closed` speaks of all steps so far, of which the last is `x`.
    rw [hgoes.closed h.live.abandoned, h.closed]
    simp only [List.mem_append, List.mem_singleton, eq_comm]
    tauto
  case balance =>
    intro hr
    -- With a reader, what has been pushed has been received or waits, before the step and after it.
    obtain ⟨hbefore, hx⟩ := hgoes.reader.mp hr
    rw [hpushed, h.balance hbefore, ← List.map_append, List.append_assoc, hgoes.queue hx,
      List.append_assoc]
  case in_order =>
    rw [hpushed]
    cases hr : (f.step x).2.stream.hasReader with
    | true =>
      obtain ⟨hbefore, hx⟩ := hgoes.reader.mp hr
      rw [h.balance hbefore, ← List.map_append, List.append_assoc, hgoes.queue hx,
        ← List.append_assoc]
      exact (List.prefix_append _ _).map some
    | false =>
      -- Without a reader nothing is received any more.
      rw [hgoes.gone hr, Option.toList_none, List.append_nil]
      exact h.in_order.trans (List.prefix_append _ _)
  case placed =>
    intro i
    obtain ⟨n, hplaces, hdrop⟩ := h.placed i
    have hremaining := hgoes.remaining i
    rw [places_append, hplaces]
    by_cases hi : i = pump
    · -- The cursor of this pump moves on by one if it has sent a record.
      subst hi
      cases sent with
      | none => exact ⟨n, by simp [more], by simpa [hdrop] using hremaining⟩
      | some y =>
        refine ⟨n + 1, ?_, ?_⟩
        · simp [more, origin, hplaces, List.range_succ]
        · rw [← List.drop_drop, hdrop, hremaining, if_pos rfl]
          rfl
    · refine ⟨n, ?_, by simpa [hdrop, hi] using hremaining⟩
      cases sent <;> simp [more, origin, Ne.symm hi]

/-- `Kept` is kept by any further steps. -/
theorem run (h : Kept buffers steps received f pushed) (more : List Step) :
    ∃ origins, Kept buffers (steps ++ more) (received ++ (f.run more).1) (f.run more).2
      (pushed ++ origins) := by
  induction more generalizing steps received f pushed with
  | nil => exact ⟨[], by simpa [FanIn.run] using h⟩
  | cons x more ih =>
    obtain ⟨os, hstep⟩ := h.step x
    obtain ⟨ps, hrun⟩ := ih hstep
    exact ⟨os ++ ps, by simpa [FanIn.run] using hrun⟩

end Kept

/-- `Kept` is true of the `start`, when nothing has been pushed yet. -/
theorem kept_start (name : String) (buffers : List (Nat × List BufferRead)) :
    Kept buffers [] [] (start name buffers) [] := by
  obtain ⟨f, hstart, hstream, hpumps⟩ : ∃ f : FanIn, start name buffers = f.settle ∧
      f.stream = .channel name Stream.perfCapacity ∧
      f.pumps = buffers.map fun buffer => { cpu := buffer.1, reads := buffer.2 } :=
    ⟨_, rfl, rfl, rfl⟩
  rw [hstart]
  -- `settle` leaves the queue and the reader as they are; only the sender may go.
  obtain ⟨hasSender, hsettle⟩ := settle_stream f
  have hlive : f.settle.Live := by
    apply Live.settle
    refine ⟨by simp [hstream, Stream.channel], by simp [hstream, Stream.channel], fun _ p hp => ?_⟩
    rw [hpumps] at hp
    obtain ⟨buffer, -, rfl⟩ := List.mem_map.mp hp
    rfl
  constructor
  case live => exact hlive
  -- Nothing is on its way yet: what remains of a buffer is all its records.
  case placed =>
    intro i
    refine ⟨0, rfl, ?_⟩
    cases hb : buffers[i]? <;>
      simp [recordsAt, records, hpumps, remaining, Pump.remaining, hb]
  all_goals simp [hsettle, hstream, hpumps, Stream.channel]

end FanIn

end EgressControl
