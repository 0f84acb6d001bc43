import EgressControl.Engine.Session
import EgressControl.Proofs.Consumer.Steps
import EgressControl.Proofs.Engine.Trace
import EgressControl.Proofs.FanIn.Merging
import EgressControl.Proofs.Shutdown.Coordination

/-!
# The tasks of a run, in whatever order they go on

`Session.run` takes the steps of all tasks of a run in any order.  Each of its parts takes steps of
its own by this, and knows nothing of the others: the two streams those of `FanIn.run`, the
coordinator those of `Shutdown.next`.

- `run_derives`: the parts of a session are what they become by such steps of their own, and the
  consumer has dealt with all that its stream has given meanwhile (`Derives`);
- `Sane`: what is true of a session at any time, whatever its tasks have done (`Sane.run`);
- `ended_run_ending`: after any steps a session comes to its end by the steps `ending`;
- `run_effects`: a run of a session belongs to the phase `consume`, and gives up the streams that it
  no longer needs.
-/

namespace EgressControl.Engine.Session

open Effect (Within)

/-! ## What the tasks do -/

section

variable (r : Resolver) (s : Session)

/-- What the stream of opened connections gives when it is read. -/
private theorem received_opened :
    ((s.fanIn .opened).run [.read]).1 =
      (FanIn.received s.coordinator.stream.read.1).toList := by
  simp [FanIn.run, FanIn.step, fanIn]

/-- What the stream of closed connections gives when it is read. -/
private theorem received_closed :
    ((s.fanIn .closed).run [.read]).1 = (FanIn.received s.closed.stream.read.1).toList := by
  simp [FanIn.run, FanIn.step, fanIn]

/-- The consumer reads its stream, takes a step for what it gets, and ends with its stream. -/
private theorem consume_spec : ∃ consuming effects,
    s.consume r =
      ({ s.onStream .opened .read with
          consumer := (s.consumer.steps r ((s.fanIn .opened).run [.read]).1).1
          consuming }, effects) ∧
      (consuming = if s.coordinator.stream.read.1 = .failed .closed then false else s.consuming) ∧
      Within .consume [] [] effects := by
  rw [received_opened]
  unfold consume
  -- A sample and a fault are both handled by `steps`, which tells of them in the main log.
  have hsample (x : Sample) (lines : List Log.Line) :
      Within .consume [] [] (.consume x :: Effect.mainLines lines) :=
    (Within.single rfl rfl rfl).append (.mainLines lines)
  cases s.coordinator.stream.read.1 with
  | sample raw => exact ⟨_, _, rfl, rfl, hsample _ _⟩
  | failed e =>
    cases e with
    | closed => exact ⟨_, _, rfl, rfl, .log .main [_]⟩
    | buffer cpu cause => exact ⟨_, _, rfl, rfl, hsample _ _⟩
  | pending | noReader => exact ⟨_, _, rfl, rfl, .nil⟩

/-- The task that counts closed connections counts what its stream gives, or gives the stream up if
that has ended. -/
private theorem drain_spec :
    (s.closed.stream.read.1 = .failed .closed ∧ ∃ effects,
      s.drain = ({ (s.onStream .closed .read).onStream .closed .dropReader with
        draining := false }, effects) ∧
      Within .consume [] [.stream closedName] effects) ∨
    (s.closed.stream.read.1 ≠ .failed .closed ∧ ∃ effects,
      s.drain = ({ s.onStream .closed .read with
        drained := s.drained +
          ((s.fanIn .closed).run [.read]).1.countP fun x => !x.isFault }, effects) ∧
      Within .consume [] [] effects) := by
  rw [received_closed]
  unfold drain
  cases s.closed.stream.read.1 with
  | sample raw => exact .inr ⟨by simp, _, rfl, .log .drainer _⟩
  | failed e =>
    cases e with
    | closed => exact .inl ⟨rfl, _, rfl, ⟨by simp, rfl, rfl⟩⟩
    | buffer cpu cause => exact .inr ⟨by simp, _, rfl, .log .drainer [_]⟩
  | pending | noReader => exact .inr ⟨by simp, _, rfl, .nil⟩

/-- The run that waits is told the cause, and then it gives the first stream up and closes the
second one, or it is not told anything yet. -/
private theorem await_spec :
    (∃ cause effects, s.coordinator.wait.1 = .cause cause ∧
      s.await = ({ (({ s with coordinator := s.coordinator.wait.2.1 } : Session).onStream .opened
        .dropReader).onStream .closed .close with told := true }, effects) ∧
      Within .consume [] [.stream openedName] effects) ∨
    ((∀ cause, s.coordinator.wait.1 ≠ .cause cause) ∧ ∃ effects,
      s.await = ({ s with coordinator := s.coordinator.wait.2.1 }, effects) ∧
      Within .consume [] [] effects) := by
  unfold await
  generalize s.coordinator.wait = answered
  obtain ⟨answer, coordinator, lines⟩ := answered
  cases answer with
  | cause cause =>
    have hgive : Within .consume [] [.stream openedName] [.release (.stream openedName)] :=
      ⟨by simp, rfl, rfl⟩
    exact .inl ⟨cause, _, rfl, rfl, (Within.mainLines _).append hgive⟩
  | pending | noHandle => exact .inr ⟨by simp, _, rfl, .mainLines _⟩

/-- All that a session can do by a step. -/
private theorem step_cases (x : Step) :
    s.step r x = (s, []) ∨
    (s.consuming = true ∧ s.step r x = s.consume r) ∨
    (s.draining = true ∧ s.step r x = s.drain) ∨
    (∃ side y, y ≠ .read ∧ y ≠ .dropReader ∧
      s.step r x = (s.onStream side y, ((s.fanIn side).lines y).map (.log .pump))) ∨
    (∃ name, s.step r x = ({ s with coordinator := (s.coordinator.fire name).2 }, [])) ∨
    (∃ first, s.step r x = ({ s with coordinator := (s.coordinator.turn first).1 },
      Effect.mainLines (s.coordinator.turn first).2)) ∨
    (s.consuming = false ∧ s.told = false ∧ s.step r x = s.await) := by
  cases x with
  | stream side y =>
    cases y with
    | read =>
      -- A task that has ended reads no more.
      cases side with
      | opened => cases hconsuming : s.consuming <;> simp [step, hconsuming]
      | closed => cases hdraining : s.draining <;> simp [step, hdraining]
    | dropReader => exact .inl (by simp [step])
    | fetch i =>
      exact .inr (.inr (.inr (.inl ⟨side, .fetch i, by simp, by simp, by simp only [step]⟩)))
    | push i =>
      exact .inr (.inr (.inr (.inl ⟨side, .push i, by simp, by simp, by simp only [step]⟩)))
    | stop i =>
      exact .inr (.inr (.inr (.inl ⟨side, .stop i, by simp, by simp, by simp only [step]⟩)))
    | close =>
      exact .inr (.inr (.inr (.inl ⟨side, .close, by simp, by simp, by simp only [step]⟩)))
  | fire name => exact .inr (.inr (.inr (.inr (.inl ⟨name, rfl⟩))))
  | turn first => exact .inr (.inr (.inr (.inr (.inr (.inl ⟨first, rfl⟩)))))
  | wait =>
    cases hconsuming : s.consuming <;> cases htold : s.told <;> simp [step, hconsuming, htold]

end

/-! ## The parts of a session -/

/-- The coordinator after some steps of its own. -/
def coordinated (c : Shutdown) (zs : List Shutdown.Step) : Shutdown :=
  zs.foldl (fun c z => (c.next z).1) c

/-- What is done to the stream of a coordinator is made of steps of the coordinator. -/
private theorem coordinated_onStream (c : Shutdown) (ys : List Stream.Step) :
    coordinated c (ys.map .stream) = { c with stream := ys.foldl Stream.next c.stream } := by
  induction ys generalizing c with
  | nil => rfl
  | cons y ys ih => exact ih _

/-- The parts of `t` are what those of `s` become by steps of their own: `xs` of the stream of
opened connections, `ys` of the other one, and `zs` of the coordinator.  The consumer has dealt
with all that the first stream has given, and the samples of the second one have been counted. -/
structure Derives (r : Resolver) (s t : Session) (xs ys : List FanIn.Step)
    (zs : List Shutdown.Step) : Prop where
  opened : t.fanIn .opened = ((s.fanIn .opened).run xs).2
  closed : t.fanIn .closed = ((s.fanIn .closed).run ys).2
  coordinator : t.coordinator = coordinated s.coordinator zs
  consumer : t.consumer = (s.consumer.steps r ((s.fanIn .opened).run xs).1).1
  drained : t.drained = s.drained + ((s.fanIn .closed).run ys).1.countP fun x => !x.isFault

namespace Derives

variable {r : Resolver} {s t u : Session} {xs xs' ys ys' : List FanIn.Step}
  {zs zs' : List Shutdown.Step}

/-- Without any steps every part is what it was. -/
private theorem refl (r : Resolver) (s : Session) : Derives r s s [] [] [] where
  opened := rfl
  closed := rfl
  coordinator := rfl
  consumer := rfl
  drained := rfl

/-- The steps of the parts of a run make up those of the whole. -/
private theorem trans (h : Derives r s t xs ys zs) (k : Derives r t u xs' ys' zs') :
    Derives r s u (xs ++ xs') (ys ++ ys') (zs ++ zs') where
  opened := by rw [k.opened, h.opened, FanIn.run_append]
  closed := by rw [k.closed, h.closed, FanIn.run_append]
  coordinator := by
    rw [k.coordinator, h.coordinator, coordinated, coordinated, coordinated, List.foldl_append]
  consumer := by rw [k.consumer, h.consumer, h.opened, FanIn.run_append, Consumer.steps_append]
  drained := by
    rw [k.drained, h.drained, h.closed, FanIn.run_append, List.countP_append, Nat.add_assoc]

/-- A step of one of the streams by which nothing is read. -/
private theorem of_stream (r : Resolver) (s : Session) (side : Side) {x : FanIn.Step}
    (hx : x ≠ .read) : ∃ xs ys zs, Derives r s (s.onStream side x) xs ys zs := by
  have hnone (f : FanIn) : (f.step x).1 = none := by cases x <;> simp_all [FanIn.step]
  cases side with
  | opened =>
    -- The stream is that of the coordinator, which sees each of the steps.
    obtain ⟨ys, hys⟩ := (s.fanIn .opened).step_streamSteps x
    refine ⟨[x], [], ys.map .stream, rfl, rfl, ?_, ?_, rfl⟩
    · rw [coordinated_onStream]
      exact congrArg (fun stream => { s.coordinator with stream }) hys
    · simp [FanIn.run, hnone, onStream, Consumer.steps]
  | closed =>
    refine ⟨[], [x], [], rfl, rfl, rfl, rfl, ?_⟩
    simp [FanIn.run, hnone, onStream]

/-- A step of the consumer reads the stream of opened connections. -/
private theorem of_consume (r : Resolver) (s : Session) :
    Derives r s (s.consume r).1 [.read] [] [.stream .read] := by
  obtain ⟨consuming, effects, heq, -, -⟩ := s.consume_spec r
  rw [heq]
  exact ⟨rfl, rfl, rfl, rfl, rfl⟩

/-- A step of the task that counts closed connections reads their stream. -/
private theorem of_drain (r : Resolver) (s : Session) : ∃ ys, Derives r s s.drain.1 [] ys [] := by
  rcases s.drain_spec with ⟨hend, effects, heq, -⟩ | ⟨-, effects, heq, -⟩ <;> rw [heq]
  · -- The stream is read, found closed and given up.
    refine ⟨[.read] ++ [.dropReader], rfl, rfl, rfl, rfl, ?_⟩
    rw [FanIn.run_append, received_closed, hend]
    rfl
  · exact ⟨[.read], rfl, rfl, rfl, rfl, rfl⟩

/-- To wait is a step of the coordinator, and may be one of each of the streams. -/
private theorem of_await (r : Resolver) (s : Session) :
    ∃ xs ys zs, Derives r s s.await.1 xs ys zs := by
  have hwait : Derives r s { s with coordinator := s.coordinator.wait.2.1 } [] [] [.wait] := by
    have hstream : s.coordinator.wait.2.1.stream = s.coordinator.stream := by
      rcases s.coordinator.wait_cases with
        ⟨-, heq⟩ | ⟨-, ⟨_, -, heq⟩ | ⟨-, -, heq⟩ | ⟨-, -, heq⟩⟩ <;> rw [heq]
    refine ⟨?_, rfl, rfl, rfl, rfl⟩
    simp [fanIn, FanIn.run, hstream]
  rcases s.await_spec with ⟨cause, effects, -, heq, -⟩ | ⟨-, effects, heq, -⟩ <;> rw [heq]
  -- A cause was told: the first reader goes and the second stream is closed.
  · obtain ⟨_, _, _, hgive⟩ := of_stream r
      ({ s with coordinator := s.coordinator.wait.2.1 } : Session) .opened (x := .dropReader)
      (by simp)
    obtain ⟨_, _, _, hclose⟩ := of_stream r _ .closed (x := .close) (by simp)
    obtain ⟨hopened, hclosed, hcoordinator, hconsumer, hdrained⟩ := (hwait.trans hgive).trans hclose
    exact ⟨_, _, _, hopened, hclosed, hcoordinator, hconsumer, hdrained⟩
  · exact ⟨_, _, _, hwait⟩

/-- The coordinator closes its stream by one of its turns, and leaves it alone by any other. -/
private theorem of_turn (r : Resolver) (s : Session) (first : Shutdown.Glance) :
    ∃ xs, Derives r s { s with coordinator := (s.coordinator.turn first).1 } xs []
      [.turn first] := by
  rcases s.coordinator.turn_cases first with ⟨-, -, heq⟩ |
    ⟨-, ⟨_, -, heq⟩ | ⟨-, heq⟩ | ⟨-, heq⟩⟩ | ⟨_, -, heq⟩ | ⟨_, -, heq⟩
  case inr.inr.inl =>
    refine ⟨[.close], ?_, rfl, rfl, rfl, rfl⟩
    simp [fanIn, FanIn.run, FanIn.step, heq]
  all_goals
    refine ⟨[], ?_, rfl, rfl, rfl, rfl⟩
    simp [fanIn, FanIn.run, heq]

end Derives

section

variable (r : Resolver) (s : Session)

/-- Each step of a session is made of steps of its parts. -/
private theorem step_derives (x : Step) : ∃ xs ys zs, Derives r s (s.step r x).1 xs ys zs := by
  -- Each kind of step of the session is steps of the two streams and of the coordinator.
  rcases s.step_cases r x with heq | ⟨-, heq⟩ | ⟨-, heq⟩ | ⟨side, y, hread, -, heq⟩ | ⟨name, heq⟩ |
    ⟨first, heq⟩ | ⟨-, -, heq⟩ <;> rw [heq]
  · exact ⟨_, _, _, .refl r s⟩
  · exact ⟨_, _, _, .of_consume r s⟩
  · obtain ⟨ys, h⟩ := Derives.of_drain r s
    exact ⟨_, ys, _, h⟩
  · exact Derives.of_stream r s side hread
  · have hstream : (s.coordinator.fire name).2.stream = s.coordinator.stream := by
      rcases s.coordinator.endTrigger_cases (.fired name) with ⟨-, heq⟩ | ⟨-, heq⟩ <;>
        simp [Shutdown.fire, heq]
    exact ⟨[], [], [.fire name], by simp [fanIn, FanIn.run, hstream], rfl, rfl, rfl, rfl⟩
  · obtain ⟨xs, h⟩ := Derives.of_turn r s first
    exact ⟨xs, _, _, h⟩
  · exact Derives.of_await r s

/-- `run` goes on where a shorter run has ended. -/
theorem run_append (steps more : List Step) :
    s.run r (steps ++ more) = (((s.run r steps).1.run r more).1,
      (s.run r steps).2 ++ ((s.run r steps).1.run r more).2) := by
  induction steps generalizing s with
  | nil => rfl
  | cons x steps ih => simp only [List.cons_append, run, ih, List.append_assoc]

end

/-! ## A session at any time -/

/-- What is true of a session, whatever its tasks have done. -/
structure Sane (s : Session) : Prop where
  coherent : s.coordinator.Coherent
  trigger : s.coordinator.trigger = .armed ∨ ∃ name, s.coordinator.trigger = .fired name
  alive : s.coordinator.task ≠ .dead
  handle : s.coordinator.handle = .spent ↔ s.told = true
  reader : s.coordinator.stream.hasReader = true ↔ s.told = false
  consumed : s.told = true → s.consuming = false
  drainer : s.closed.stream.hasReader = true ↔ s.draining = true
  closing : s.told = true → s.closed.stream.closed = true
  abandoned : s.closed.stream.hasReader = false → s.closed.stream.closed = true

namespace Sane

variable {s : Session}

/-- Steps of its own keep a coordinator coherent. -/
private theorem coherent_coordinated {c : Shutdown} (h : c.Coherent) (zs : List Shutdown.Step) :
    (coordinated c zs).Coherent := by
  induction zs generalizing c with
  | nil => exact h
  | cons z zs ih => exact ih (h.next z)

/-- A step of one of the streams leaves its reader where it is, and opens nothing again. -/
private theorem onStream (h : Sane s) (side : Side) {x : FanIn.Step} (hx : x ≠ .dropReader)
    (hcoherent : (s.onStream side x).coordinator.Coherent) : Sane (s.onStream side x) := by
  have hreader := (s.fanIn side).hasReader_step x
  simp only [hx, ne_eq, not_false_eq_true, and_true] at hreader
  -- `Sane` says of the first stream that its reader is there, of the second also that it is
  -- closed once the cause is told.
  cases side with
  | opened =>
    exact ⟨hcoherent, h.trigger, h.alive, h.handle, hreader.trans h.reader, h.consumed, h.drainer,
      h.closing, h.abandoned⟩
  | closed =>
    have hclosed := FanIn.closed_step (f := s.fanIn .closed) h.abandoned x
    refine ⟨hcoherent, h.trigger, h.alive, h.handle, h.reader, h.consumed,
      hreader.trans h.drainer, fun htold => hclosed.mpr (.inl (h.closing htold)), fun hgone => ?_⟩
    refine hclosed.mpr (.inl (h.abandoned (Bool.eq_false_iff.mpr fun hthere => ?_)))
    exact absurd (hreader.mpr hthere) (Bool.eq_false_iff.mp hgone)

/-- The stream of closed connections loses its reader with the task that reads it. -/
private theorem drain (h : Sane s) (hcoherent : s.drain.1.coordinator.Coherent) :
    Sane s.drain.1 := by
  have hread : Sane (s.onStream .closed .read) := h.onStream .closed (by simp) h.coherent
  rcases s.drain_spec with ⟨-, effects, heq, -⟩ | ⟨-, effects, heq, -⟩ <;>
    rw [heq] at hcoherent ⊢
  · have hgone := ((s.onStream .closed .read).closed.hasReader_step .dropReader).not.mpr (by simp)
    have hclosed := (FanIn.closed_step hread.abandoned .dropReader).mpr (.inr (.inr rfl))
    exact ⟨hcoherent, h.trigger, h.alive, h.handle, h.reader, h.consumed,
      iff_of_false hgone (by simp), fun _ => hclosed, fun _ => hclosed⟩
  · exact ⟨hcoherent, h.trigger, h.alive, h.handle, h.reader, h.consumed, hread.drainer,
      hread.closing, hread.abandoned⟩

/-- A coordinator whose trigger does not panic does not die. -/
private theorem turn (h : Sane s) (first : Shutdown.Glance)
    (hcoherent : (s.coordinator.turn first).1.Coherent) :
    Sane { s with coordinator := (s.coordinator.turn first).1 } := by
  have halive := h.alive
  rcases s.coordinator.turn_cases first with ⟨-, -, heq⟩ |
    ⟨-, ⟨_, -, heq⟩ | ⟨hpanicked, -⟩ | ⟨-, heq⟩⟩ | ⟨_, -, heq⟩ | ⟨_, -, heq⟩
  case inr.inl.inr.inl =>
    rcases h.trigger with harmed | ⟨name, hfired⟩
    · exact absurd (harmed.symm.trans hpanicked) (by simp)
    · exact absurd (hfired.symm.trans hpanicked) (by simp)
  all_goals
    rw [heq] at hcoherent ⊢
    refine ⟨hcoherent, h.trigger, ?_, h.handle, h.reader, h.consumed, h.drainer, h.closing,
      h.abandoned⟩
    simp [halive]

/-- The run is told the cause once, and then it holds the first stream no longer. -/
private theorem await (h : Sane s) (htold : s.told = false) (hconsuming : s.consuming = false)
    (hcoherent : s.await.1.coordinator.Coherent) : Sane s.await.1 := by
  have hheld : s.coordinator.handle ≠ .spent := fun hspent => by simp [h.handle.mp hspent] at htold
  rcases s.await_spec with ⟨cause, effects, hcause, heq, -⟩ | ⟨hnone, effects, heq, -⟩ <;>
    rw [heq] at hcoherent ⊢
  · have hwait : s.coordinator.wait.2.1 = { s.coordinator with handle := .spent } := by
      rcases s.coordinator.wait_cases with
        ⟨-, heq⟩ | ⟨-, ⟨_, -, heq⟩ | ⟨-, -, heq⟩ | ⟨-, -, heq⟩⟩ <;> simp_all
    have hgone := ((({ s with coordinator := s.coordinator.wait.2.1 } : Session).fanIn
      .opened).hasReader_step .dropReader).not.mpr (by simp)
    have hclosed := (FanIn.closed_step (f := s.closed) h.abandoned .close).mpr (.inr (.inl rfl))
    refine ⟨hcoherent, ?_, ?_, ?_, iff_of_false hgone (by simp), fun _ => hconsuming, ?_,
      fun _ => hclosed, fun _ => hclosed⟩
    · simpa [Session.onStream, hwait] using h.trigger
    · simpa [Session.onStream, hwait] using h.alive
    · simp [Session.onStream, hwait]
    · exact ((s.closed.hasReader_step .close).trans (by simp)).trans h.drainer
  · -- The coordinator is not dead, and has not posted yet.
    have hwait : s.coordinator.wait.2.1 = { s.coordinator with handle := .waiting } := by
      rcases s.coordinator.wait_cases with
        ⟨hspent, -⟩ | ⟨-, ⟨cause, -, heq⟩ | ⟨-, -, heq⟩ | ⟨-, -, heq⟩⟩
      · exact absurd hspent hheld
      · exact absurd (by rw [heq]) (hnone cause)
      · exact absurd (by rw [heq]) (hnone .readerClosed)
      · rw [heq]
    rw [hwait] at hcoherent ⊢
    exact ⟨hcoherent, h.trigger, h.alive, by simp [htold], h.reader, h.consumed, h.drainer,
      h.closing, h.abandoned⟩

/-- `Sane` is kept by every step. -/
private theorem step (h : Sane s) (r : Resolver) (x : Step) : Sane (s.step r x).1 := by
  have hcoherent : (s.step r x).1.coordinator.Coherent := by
    obtain ⟨_, _, zs, hderives⟩ := s.step_derives r x
    rw [hderives.coordinator]
    exact coherent_coordinated h.coherent zs
  rcases s.step_cases r x with heq | ⟨hconsuming, heq⟩ | ⟨hdraining, heq⟩ |
    ⟨side, y, hread, hdrop, heq⟩ | ⟨name, heq⟩ | ⟨first, heq⟩ | ⟨hconsuming, htold, heq⟩ <;>
    rw [heq] at hcoherent ⊢
  · exact h
  · obtain ⟨consuming, effects, heq', hconsuming', -⟩ := s.consume_spec r
    rw [heq'] at hcoherent ⊢
    obtain ⟨-, htrigger, halive, hhandle, hreader, -, hdrainer, hclosing, habandoned⟩ :=
      h.onStream .opened (x := .read) (by simp) hcoherent
    refine ⟨hcoherent, htrigger, halive, hhandle, hreader, fun htold => ?_, hdrainer, hclosing,
      habandoned⟩
    -- The consumer goes on only if the run has not been told.
    exact absurd (h.consumed htold) (by simp [hconsuming])
  · exact h.drain hcoherent
  · exact h.onStream side hdrop hcoherent
  · rcases s.coordinator.endTrigger_cases (.fired name) with ⟨-, hfire⟩ | ⟨-, hfire⟩ <;>
      rw [Shutdown.fire, hfire] at hcoherent ⊢
    · exact h
    · exact ⟨hcoherent, .inr ⟨name, rfl⟩, h.alive, h.handle, h.reader, h.consumed, h.drainer,
        h.closing, h.abandoned⟩
  · exact h.turn first hcoherent
  · exact h.await htold hconsuming hcoherent

/-- `Sane` is kept by every run. -/
theorem run (h : Sane s) (r : Resolver) (steps : List Step) : Sane (s.run r steps).1 := by
  induction steps generalizing s with
  | nil => exact h
  | cons x steps ih => exact ih (h.step r x)

/-- Tasks that begin with two streams and their readers are sane. -/
theorem of_start {opened closed : FanIn} (consumer : Consumer AllowMap)
    (hopened : opened.stream.hasReader = true) (hclosed : closed.stream.hasReader = true) :
    Sane (start opened closed consumer) where
  coherent := .of_arm fun hgone => absurd hopened (by simp [hgone])
  trigger := .inl rfl
  alive := by simp [start, Shutdown.arm]
  handle := by simp [start, Shutdown.arm]
  reader := by simp [start, Shutdown.arm, hopened]
  consumed := by simp [start]
  drainer := by simp [start, hclosed]
  closing := by simp [start]
  abandoned := fun hgone => absurd hclosed (by simpa [start] using hgone)

end Sane

/-! ## How a session comes to its end -/

section

variable {s : Session} (r : Resolver)

/-- The three turns of `ending` bring the coordinator to its end, and it has posted. -/
private theorem posted_of_turns (h : Sane s) {name : String}
    (hfired : s.coordinator.trigger = .fired name) :
    let t := (s.run r [.turn .trigger, .turn .trigger, .turn .trigger]).1
    t.coordinator.posted.isSome = true ∧ t.coordinator.stream.closed = true := by
  intro t
  have ht : Sane t := h.run r _
  -- The turns of the session are those of its coordinator.
  have hended : t.coordinator.task.ended = true :=
    Shutdown.ended_foldl (c := ⟨s.coordinator, []⟩) h.coherent (.inr (.inl ⟨name, hfired⟩))
      [.turn .trigger, .turn .trigger, .turn .trigger] (by decide)
  have hfinished : t.coordinator.task = .finished := by
    have halive := ht.alive
    cases htask : t.coordinator.task <;> simp_all [Shutdown.Task.ended]
  exact ⟨ht.coherent.finished_iff.mp hfinished, ht.coherent.closed (by rw [hfinished]; rfl)⟩

/-- A consumer that reads a stream that is closed comes to its end. -/
private theorem consuming_of_read (h : Sane s) (hclosed : s.coordinator.stream.closed = true) :
    let t := (s.step r (.stream .opened .read)).1
    t.consuming = false ∧ t.coordinator.posted = s.coordinator.posted := by
  cases hconsuming : s.consuming with
  | false => simp [step, hconsuming]
  | true =>
    have htold : s.told = false :=
      Bool.eq_false_iff.mpr fun htold => by simp [h.consumed htold] at hconsuming
    have hread := Stream.read_of_closed (h.reader.mpr htold) hclosed
    obtain ⟨consuming, effects, heq, hends, -⟩ := s.consume_spec r
    simp only [step, hconsuming, if_true, heq]
    exact ⟨by rw [hends, hread, if_pos rfl], rfl⟩

/-- A run whose consumer has ended is told the cause as soon as it has been posted. -/
private theorem told_of_wait (h : Sane s) (hconsuming : s.consuming = false)
    (hposted : s.coordinator.posted.isSome = true) : (s.step r .wait).1.told = true := by
  cases htold : s.told with
  | true => simp [step, htold]
  | false =>
    have hheld : s.coordinator.handle ≠ .spent := fun hspent => by
      simp [h.handle.mp hspent] at htold
    simp only [step, hconsuming, htold, Bool.or_false, Bool.false_eq_true, if_false]
    rcases s.await_spec with ⟨_, _, -, heq, -⟩ | ⟨hnone, _, -, -⟩
    · rw [heq]
    · -- What has been posted is answered.
      rcases s.coordinator.wait_cases with
        ⟨hspent, -⟩ | ⟨-, ⟨cause, -, heq⟩ | ⟨hnot, -⟩ | ⟨hnot, -⟩⟩
      · exact absurd hspent hheld
      · exact absurd (by rw [heq]) (hnone cause)
      · simp [hnot] at hposted
      · simp [hnot] at hposted

/-- The task that counts closed connections ends when it finds their stream closed. -/
private theorem draining_of_read (h : Sane s) (htold : s.told = true) :
    let t := (s.step r (.stream .closed .read)).1
    t.told = true ∧ t.draining = false := by
  cases hdraining : s.draining with
  | false => simp [step, hdraining, htold]
  | true =>
    have hread := Stream.read_of_closed (h.drainer.mpr hdraining) (h.closing htold)
    simp only [step, hdraining, if_true]
    rcases s.drain_spec with ⟨-, _, heq, -⟩ | ⟨hnot, -⟩
    · rw [heq]
      exact ⟨htold, rfl⟩
    · exact absurd (by rw [hread]) hnot

/-- Whatever its tasks have done, a session comes to its end by the steps `ending`. -/
theorem ended_run_ending (h : Sane s) (signal : String) :
    let t := (s.run r (ending signal)).1
    t.told = true ∧ t.draining = false := by
  -- The signal fires the trigger, unless another one has done so before.
  let fired := (s.step r (.fire signal)).1
  have hfired : ∃ name, fired.coordinator.trigger = .fired name := by
    simp only [fired, step, Shutdown.fire]
    rcases s.coordinator.endTrigger_cases (.fired signal) with ⟨hnot, heq⟩ | ⟨-, heq⟩ <;> rw [heq]
    · exact h.trigger.resolve_left hnot
    · exact ⟨signal, rfl⟩
  obtain ⟨name, hname⟩ := hfired
  have hsane : Sane fired := h.run r [.fire signal]
  let turned := (fired.run r [.turn .trigger, .turn .trigger, .turn .trigger]).1
  obtain ⟨hposted, hclosed⟩ := posted_of_turns r hsane hname
  have hturned : Sane turned := hsane.run r _
  -- The consumer ends, then the run is told, and then the task that counts ends.
  let read := (turned.step r (.stream .opened .read)).1
  obtain ⟨hconsuming, hsame⟩ := consuming_of_read r hturned hclosed
  have hread : Sane read := hturned.run r [.stream .opened .read]
  have htold := told_of_wait r hread hconsuming (hsame ▸ hposted)
  exact draining_of_read r (hread.run r [.wait]) htold

end

/-! ## What a session does -/

/-- The streams that are held. -/
def held (s : Session) : List Resource :=
  (if s.told then [] else [.stream openedName]) ++ if s.draining then [.stream closedName] else []

section

variable (r : Resolver) (s : Session)

/-- A step gives up what is no longer held after it. -/
private theorem step_effects (x : Step) : ∃ given, Within .consume [] given (s.step r x).2 ∧
    (given ++ (s.step r x).1.held).Perm s.held := by
  -- Only draining and the wait give anything back, the second stream and the first.
  rcases s.step_cases r x with heq | ⟨-, heq⟩ | ⟨hdraining, heq⟩ | ⟨side, y, -, -, heq⟩ |
    ⟨name, heq⟩ | ⟨first, heq⟩ | ⟨-, htold, heq⟩ <;> rw [heq]
  · exact ⟨[], .nil, .refl _⟩
  · obtain ⟨_, effects, heq', -, hwithin⟩ := s.consume_spec r
    rw [heq']
    exact ⟨[], hwithin, .refl _⟩
  · rcases s.drain_spec with ⟨-, effects, heq', hwithin⟩ | ⟨-, effects, heq', hwithin⟩ <;> rw [heq']
    · refine ⟨_, hwithin, ?_⟩
      simp only [held, hdraining, onStream, if_true, Bool.false_eq_true, if_false, List.append_nil]
      exact List.perm_append_comm
    · exact ⟨[], hwithin, .refl _⟩
  · refine ⟨[], .log .pump _, ?_⟩
    cases side <;> exact .refl _
  · exact ⟨[], .nil, .refl _⟩
  · exact ⟨[], .mainLines _, .refl _⟩
  · rcases s.await_spec with ⟨_, effects, -, heq', hwithin⟩ | ⟨-, effects, heq', hwithin⟩ <;>
      rw [heq']
    · refine ⟨_, hwithin, ?_⟩
      simp [held, htold, onStream]
    · exact ⟨[], hwithin, .refl _⟩

/-- A run belongs to the phase `consume`, acquires nothing, and gives up what is no longer held
after it. -/
theorem run_effects (steps : List Step) : ∃ given, Within .consume [] given (s.run r steps).2 ∧
    (given ++ (s.run r steps).1.held).Perm s.held := by
  induction steps generalizing s with
  | nil => exact ⟨[], .nil, .refl _⟩
  | cons x steps ih =>
    obtain ⟨given, hstep, hheld⟩ := s.step_effects r x
    obtain ⟨more, hrest, hleft⟩ := ih (s.step r x).1
    refine ⟨given ++ more, hstep.append hrest, ?_⟩
    rw [List.append_assoc]
    exact (hleft.append_left given).trans hheld

end

end EgressControl.Engine.Session
