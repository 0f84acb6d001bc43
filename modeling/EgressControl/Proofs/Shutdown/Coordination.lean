import EgressControl.Proofs.Stream.Delivery
import EgressControl.Shutdown

/-!
# Ending a run, in whatever order things happen

`Shutdown.Step` lists all that can happen around a coordinator: its trigger comes to an end, the
coordinator does one thing (`turn`), `disarm` and `wait` are called, and the stream is sent to, read
or closed.  `Shutdown.run` takes such steps, in any order, over a stream with any past.

- `turn_cases`, `wait_cases`: all that `turn` and `wait` can do;
- `Coherent`: what is true of a coordinator at any time;
- `Course.Sound`: what its state tells about the steps that have been taken; every run keeps this
  (`Course.sound_run`);
- `ended_foldl`: a coordinator that has anything to see (`Ready`) comes to its end by three turns;
- `run_posts_once_after_closing`: what is posted, what `wait` answers, and what the log tells.
-/

namespace EgressControl.Shutdown

/-- What can happen around a coordinator. -/
inductive Step where
  | fire (name : String)
  | panic
  /-- The trigger will never fire. -/
  | dropTrigger
  | turn (first : Glance)
  | disarm
  | wait
  | stream (x : Stream.Step)
  deriving DecidableEq

/-- How a step ends the trigger, if it does. -/
def Step.ending : Step → Option Trigger
  | fire name => some (.fired name)
  | panic => some .panicked
  | dropTrigger => some .dropped
  | turn _ | disarm | wait | stream _ => none

/-- Whether a step closes the stream, other than by the coordinator. -/
def Step.closes : Step → Bool
  | stream x => x.closes
  | fire _ | panic | dropTrigger | turn _ | disarm | wait => false

/-- Whether a step is one of the coordinator. -/
def Step.isTurn : Step → Bool
  | turn _ => true
  | fire _ | panic | dropTrigger | disarm | wait | stream _ => false

/-- The coordinator after a step, and the lines of the step. -/
def next (s : Shutdown) : Step → Shutdown × List Log.Line
  | .fire name => ((s.fire name).2, [])
  | .panic => (s.panic.2, [])
  | .dropTrigger => (s.dropTrigger.2, [])
  | .turn first => s.turn first
  | .disarm => (s.disarm.2, [])
  | .wait => s.wait.2
  | .stream x => ({ s with stream := s.stream.next x }, [])

/-- A coordinator, and the lines so far. -/
structure Course where
  state : Shutdown
  lines : List Log.Line := []

/-- The course after another step. -/
def Course.step (c : Course) (x : Step) : Course where
  state := (c.state.next x).1
  lines := c.lines ++ (c.state.next x).2

/-- A coordinator is armed for a stream, and then steps are taken one after the other. -/
def run (stream : Stream) (steps : List Step) : Course :=
  steps.foldl Course.step { state := arm stream }

/-- `run` goes on where a shorter run has ended. -/
private theorem run_append (stream : Stream) (steps more : List Step) :
    run stream (steps ++ more) = more.foldl Course.step (run stream steps) := List.foldl_append

/-! ## How far the coordinator is -/

/-- The cause that a task has seen and is about to post. -/
def Task.cause? : Task → Option ShutdownCause
  | closing cause | posting cause => some cause
  | watching | finished | dead => none

/-- The cause that the coordinator has seen, whether or not it has posted it. -/
def seen (s : Shutdown) : Option ShutdownCause := s.task.cause?.or s.posted

/-- Whether the task has closed the stream. -/
def Task.hasClosed : Task → Bool
  | posting _ | finished => true
  | watching | closing _ | dead => false

/-- The number of turns that a task needs to come to its end. -/
def Task.turnsLeft : Task → Nat
  | watching => 3
  | closing _ => 2
  | posting _ => 1
  | finished | dead => 0

/-- A task has `ended` exactly if it needs no more turns. -/
private theorem Task.ended_iff {t : Task} : t.ended = true ↔ t.turnsLeft = 0 := by
  cases t <;> simp [ended, turnsLeft]

/-- A task that has ended is about to post nothing. -/
private theorem Task.cause?_of_ended {t : Task} (h : t.ended = true) : t.cause? = none := by
  cases t <;> simp_all [ended, cause?]

/-- Whether there is something to see for the coordinator. -/
def Ready (s : Shutdown) : Prop :=
  s.stream.closed = true ∨ (∃ name, s.trigger = .fired name) ∨ s.trigger = .panicked

/-- The cause that is seen if the trigger has fired with `name` and the stream is closed. -/
def seenFirst (name : String) : Glance → ShutdownCause
  | .trigger => .signal name
  | .stream => .readerClosed

/-- The lines of a coordinator that has seen a cause. -/
def toldOf : ShutdownCause → List Log.Line
  | .signal name => [receivedLine name]
  | .readerClosed => []

/-! ## What the operations do -/

/-- `turn` of a watching coordinator does nothing, sees a cause or dies with its trigger. -/
private theorem turn_watching_cases {s : Shutdown} (htask : s.task = .watching) (first : Glance) :
    (¬s.Ready ∧ s.turn first = (s, [])) ∨
    (∃ name, s.trigger = .fired name ∧
      s.turn first = ({ s with task := .closing (.signal name) }, [receivedLine name])) ∨
    (s.trigger = .panicked ∧ s.turn first = ({ s with task := .dead }, [])) ∨
    (s.stream.closed = true ∧ s.turn first = ({ s with task := .closing .readerClosed }, [])) := by
  -- If both are ready, the one that is looked at first decides.
  cases hc : s.stream.closed <;> cases ht : s.trigger <;> cases first <;>
    simp [turn, htask, pollTrigger, pollStream, hc, ht, Ready]

/-- `turn` does nothing, sees a cause, dies with the trigger, closes the stream or posts. -/
theorem turn_cases (s : Shutdown) (first : Glance) :
    ((s.task = .watching → ¬s.Ready) ∧ s.task.cause? = none ∧ s.turn first = (s, [])) ∨
    (s.task = .watching ∧
      ((∃ name, s.trigger = .fired name ∧
          s.turn first = ({ s with task := .closing (.signal name) }, [receivedLine name])) ∨
        (s.trigger = .panicked ∧ s.turn first = ({ s with task := .dead }, [])) ∨
        (s.stream.closed = true ∧
          s.turn first = ({ s with task := .closing .readerClosed }, [])))) ∨
    (∃ cause, s.task = .closing cause ∧
      s.turn first = ({ s with stream := s.stream.close, task := .posting cause }, [])) ∨
    (∃ cause, s.task = .posting cause ∧
      s.turn first = ({ s with posted := some cause, task := .finished }, [])) := by
  cases htask : s.task with
  | watching =>
    rcases turn_watching_cases htask first with ⟨hready, heq⟩ | hsees
    · exact .inl ⟨fun _ => hready, rfl, heq⟩
    · exact .inr (.inl ⟨rfl, hsees⟩)
  | closing cause => exact .inr (.inr (.inl ⟨cause, rfl, by simp [turn, htask]⟩))
  | posting cause => exact .inr (.inr (.inr ⟨cause, rfl, by simp [turn, htask]⟩))
  | finished | dead => exact .inl ⟨by simp, rfl, by simp [turn, htask]⟩

/-- If the trigger has fired and the stream is closed, `turn` sees the one at which it looks
first. -/
private theorem turn_of_both {s : Shutdown} {name : String} (htask : s.task = .watching)
    (hclosed : s.stream.closed = true) (hfired : s.trigger = .fired name) (first : Glance) :
    (s.turn first).1 = { s with task := .closing (seenFirst name first) } := by
  cases first <;> simp [turn, htask, pollTrigger, pollStream, hclosed, hfired, seenFirst]

/-- `wait` finds its handle spent, answers with what has been posted, answers with a warning that
nothing will be posted, or is still pending. -/
theorem wait_cases (s : Shutdown) :
    (s.handle = .spent ∧ s.wait = (.noHandle, s, [])) ∨
    s.handle ≠ .spent ∧
      ((∃ cause, s.posted = some cause ∧
          s.wait = (.cause cause, { s with handle := .spent }, [])) ∨
        (s.posted = none ∧ s.task = .dead ∧
          s.wait = (.cause .readerClosed, { s with handle := .spent }, [lostLine])) ∨
        (s.posted = none ∧ s.task ≠ .dead ∧
          s.wait = (.pending, { s with handle := .waiting }, []))) := by
  cases hh : s.handle <;> cases hp : s.posted <;> cases ht : s.task <;> simp [wait, hh, hp, ht]

/-- `disarm` does nothing without a handle; it stops the coordinator as long as it is watching. -/
private theorem disarm_cases (s : Shutdown) :
    s.disarm.2 = s ∨
      (s.task = .watching ∧ s.disarm.2 = { s with handle := .spent, task := .dead }) ∨
      (s.task ≠ .watching ∧ s.disarm.2 = { s with handle := .spent }) := by
  cases hh : s.handle <;> cases ht : s.task <;> simp [disarm, hh, ht]

/-- `endTrigger` changes a trigger that is still `armed`, and no other. -/
theorem endTrigger_cases (s : Shutdown) (t : Trigger) :
    (s.trigger ≠ .armed ∧ (s.endTrigger t).2 = s) ∨
      (s.trigger = .armed ∧ (s.endTrigger t).2 = { s with trigger := t }) := by
  by_cases h : s.trigger = .armed <;> simp [endTrigger, h]

/-- `endTrigger` changes nothing but the trigger. -/
private theorem endTrigger_same (s : Shutdown) (t : Trigger) :
    (s.endTrigger t).2.task = s.task ∧ (s.endTrigger t).2.posted = s.posted ∧
      (s.endTrigger t).2.handle = s.handle ∧ (s.endTrigger t).2.stream = s.stream := by
  rcases s.endTrigger_cases t with ⟨-, heq⟩ | ⟨-, heq⟩ <;> rw [heq] <;> simp

/-- A step that ends the trigger is an `endTrigger`. -/
private theorem next_of_ending {x : Step} {t : Trigger} (s : Shutdown) (h : x.ending = some t) :
    s.next x = ((s.endTrigger t).2, []) := by
  cases x <;> simp only [Step.ending, Option.some.injEq, reduceCtorEq] at h <;> subst h <;> rfl

/-- A step sees a cause, closes the stream, posts, or answers `wait` with the warning.  Any other
step leaves no lines and no cause; it may stop a coordinator that is watching, and it may change the
stream as one of `Stream.Step`. -/
private theorem next_cases (s : Shutdown) (x : Step) :
    (∃ cause, s.task = .watching ∧ (cause = .readerClosed → s.stream.closed = true) ∧
      x.closes = false ∧ s.next x = ({ s with task := .closing cause }, toldOf cause)) ∨
    (∃ cause, s.task = .closing cause ∧ x.closes = false ∧
      s.next x = ({ s with stream := s.stream.close, task := .posting cause }, [])) ∨
    (∃ cause, s.task = .posting cause ∧ x.closes = false ∧
      s.next x = ({ s with posted := some cause, task := .finished }, [])) ∨
    (x.closes = false ∧ s.handle ≠ .spent ∧
      s.next x = ({ s with handle := .spent }, [lostLine])) ∨
    ((s.next x).2 = [] ∧ (s.next x).1.posted = s.posted ∧
      ((s.next x).1.task = s.task ∨ s.task = .watching ∧ (s.next x).1.task = .dead) ∧
      (s.handle = .spent → (s.next x).1.handle = .spent) ∧
      ((x.closes = false ∧ (s.next x).1.stream = s.stream) ∨
        ∃ y, x = .stream y ∧ (s.next x).1.stream = s.stream.next y)) := by
  -- The five alternatives, in order: a cause is found, the stream is closed, the cause is
  -- posted, a lost task is told of, and nothing of this kind.
  cases x with
  | fire name | panic | dropTrigger =>
    obtain ⟨htask, hposted, hhandle, hstream⟩ := s.endTrigger_same _
    exact .inr (.inr (.inr (.inr ⟨rfl, hposted, .inl htask, fun h => hhandle.trans h,
      .inl ⟨rfl, hstream⟩⟩)))
  | turn first =>
    rcases s.turn_cases first with ⟨-, -, heq⟩ |
      ⟨htask, ⟨name, -, heq⟩ | ⟨-, heq⟩ | ⟨hclosed, heq⟩⟩ | ⟨cause, htask, heq⟩ |
      ⟨cause, htask, heq⟩
    · exact .inr (.inr (.inr (.inr (by simp [next, heq, Step.closes]))))
    · exact .inl ⟨.signal name, htask, by simp, rfl, heq⟩
    · exact .inr (.inr (.inr (.inr (by simp [next, heq, htask, Step.closes]))))
    · exact .inl ⟨.readerClosed, htask, fun _ => hclosed, rfl, heq⟩
    · exact .inr (.inl ⟨cause, htask, rfl, heq⟩)
    · exact .inr (.inr (.inl ⟨cause, htask, rfl, heq⟩))
  | disarm =>
    refine .inr (.inr (.inr (.inr ?_)))
    rcases s.disarm_cases with heq | ⟨htask, heq⟩ | ⟨-, heq⟩
    · simp [next, heq, Step.closes]
    · simp [next, heq, htask, Step.closes]
    · simp [next, heq, Step.closes]
  | wait =>
    rcases s.wait_cases with ⟨-, heq⟩ | ⟨hheld, ⟨cause, -, heq⟩ | ⟨-, -, heq⟩ | ⟨-, -, heq⟩⟩
    · exact .inr (.inr (.inr (.inr (by simp [next, heq, Step.closes]))))
    · exact .inr (.inr (.inr (.inr (by simp [next, heq, Step.closes]))))
    · exact .inr (.inr (.inr (.inl ⟨rfl, hheld, congrArg Prod.snd heq⟩)))
    · exact .inr (.inr (.inr (.inr (by simp [next, heq, Step.closes, hheld]))))
  | stream y => exact .inr (.inr (.inr (.inr ⟨rfl, rfl, .inl rfl, id, .inr ⟨y, rfl, rfl⟩⟩)))

/-! ## A coordinator at any time -/

/-- What is true of a coordinator, whatever has happened. -/
structure Coherent (s : Shutdown) : Prop where
  finished_iff : s.task = .finished ↔ s.posted.isSome = true
  signal : ∀ name, s.seen = some (.signal name) → s.trigger = .fired name
  closed : s.task.hasClosed = true → s.stream.closed = true
  -- To spend the handle is to stop the coordinator, or to have heard of its end.
  spent : s.handle = .spent → s.task ≠ .watching
  abandoned : s.stream.hasReader = false → s.stream.closed = true

namespace Coherent

variable {s : Shutdown}

/-- Nothing has been posted unless the task is `finished`. -/
private theorem posted_of_ne_finished (h : Coherent s) (hs : s.task ≠ .finished) :
    s.posted = none := by
  cases hposted : s.posted with
  | none => rfl
  | some cause => exact absurd (h.finished_iff.mpr (by rw [hposted]; rfl)) hs

/-- `endTrigger` keeps a coordinator `Coherent`: a trigger that is still `armed` has not been
seen. -/
private theorem endTrigger (h : Coherent s) (t : Trigger) : Coherent (s.endTrigger t).2 := by
  rcases s.endTrigger_cases t with ⟨-, heq⟩ | ⟨harmed, heq⟩
  · rwa [heq]
  · rw [heq]
    refine ⟨h.finished_iff, fun name hseen => ?_, h.closed, h.spent, h.abandoned⟩
    exact absurd ((h.signal name hseen).symm.trans harmed) (by simp)

/-- `turn` keeps a coordinator `Coherent`: the stream is closed before the cause is posted. -/
private theorem turn (h : Coherent s) (first : Glance) : Coherent (s.turn first).1 := by
  rcases s.turn_cases first with ⟨-, -, heq⟩ |
    ⟨htask, ⟨name, hfired, heq⟩ | ⟨-, heq⟩ | ⟨hclosed, heq⟩⟩ | ⟨cause, htask, heq⟩ |
    ⟨cause, htask, heq⟩ <;> rw [heq]
  · exact h
  · have hposted := h.posted_of_ne_finished (by simp [htask])
    refine ⟨by simp [hposted], ?_, by simp [Task.hasClosed], by simp, h.abandoned⟩
    simpa [seen, Task.cause?] using hfired
  · -- A coordinator that dies with its trigger leaves the stream as it is.
    have hposted := h.posted_of_ne_finished (by simp [htask])
    exact ⟨by simp [hposted], by simp [seen, Task.cause?, hposted], by simp [Task.hasClosed],
      by simp, h.abandoned⟩
  · have hposted := h.posted_of_ne_finished (by simp [htask])
    exact ⟨by simp [hposted], by simp [seen, Task.cause?], by simp [Task.hasClosed], by simp,
      h.abandoned⟩
  · have hposted := h.posted_of_ne_finished (by simp [htask])
    refine ⟨by simp [hposted], fun name hseen => h.signal name ?_, fun _ => rfl, by simp,
      fun _ => rfl⟩
    simpa [seen, Task.cause?, htask] using hseen
  · refine ⟨by simp, fun name hseen => h.signal name ?_, fun _ => h.closed ?_, by simp,
      h.abandoned⟩
    · simpa [seen, Task.cause?, htask] using hseen
    · simp [htask, Task.hasClosed]

/-- `disarm` keeps a coordinator `Coherent`: one that it stops has not posted, and will not. -/
private theorem disarm (h : Coherent s) : Coherent s.disarm.2 := by
  rcases s.disarm_cases with heq | ⟨htask, heq⟩ | ⟨htask, heq⟩ <;> rw [heq]
  · exact h
  · have hposted := h.posted_of_ne_finished (by simp [htask])
    exact ⟨by simp [hposted], by simp [seen, Task.cause?, hposted], by simp [Task.hasClosed],
      by simp, h.abandoned⟩
  · exact ⟨h.finished_iff, h.signal, h.closed, fun _ => htask, h.abandoned⟩

/-- `wait` keeps a coordinator `Coherent`: it spends the handle only if the task has ended. -/
private theorem wait (h : Coherent s) : Coherent s.wait.2.1 := by
  rcases s.wait_cases with ⟨-, heq⟩ | ⟨-, ⟨cause, hposted, heq⟩ | ⟨-, htask, heq⟩ | ⟨-, -, heq⟩⟩ <;>
    rw [heq]
  · exact h
  · have htask : s.task = .finished := h.finished_iff.mpr (by rw [hposted]; rfl)
    exact ⟨h.finished_iff, h.signal, h.closed, fun _ => by simp [htask], h.abandoned⟩
  · exact ⟨h.finished_iff, h.signal, h.closed, fun _ => by simp [htask], h.abandoned⟩
  · exact ⟨h.finished_iff, h.signal, h.closed, by simp, h.abandoned⟩

/-- Whatever is done to the stream keeps a coordinator `Coherent`, since nothing opens it again. -/
private theorem onStream (h : Coherent s) (x : Stream.Step) :
    Coherent { s with stream := s.stream.next x } where
  finished_iff := h.finished_iff
  signal := h.signal
  closed := fun hclosed => (Stream.closed_next h.abandoned x).mpr (.inl (h.closed hclosed))
  spent := h.spent
  abandoned := Stream.closed_next_of_gone h.abandoned

/-- Every step keeps a coordinator `Coherent`. -/
theorem next (h : Coherent s) (x : Step) : Coherent (s.next x).1 := by
  cases x with
  | fire name => exact h.endTrigger (.fired name)
  | panic => exact h.endTrigger .panicked
  | dropTrigger => exact h.endTrigger .dropped
  | turn first => exact h.turn first
  | disarm => exact h.disarm
  | wait => exact h.wait
  | stream x => exact h.onStream x

/-- A coordinator for a stream is `Coherent`, unless its reader has gone without closing it. -/
theorem of_arm {stream : Stream} (h : stream.hasReader = false → stream.closed = true) :
    Coherent (arm stream) where
  finished_iff := by simp [arm]
  signal := by simp [arm, seen, Task.cause?]
  closed := by simp [arm, Task.hasClosed]
  spent := by simp [arm]
  abandoned := h

/-- A cause that has been posted has been seen. -/
private theorem seen_of_posted (h : Coherent s) {cause : ShutdownCause}
    (hposted : s.posted = some cause) : s.seen = some cause := by
  have htask : s.task = .finished := h.finished_iff.mpr (by rw [hposted]; rfl)
  simp [seen, htask, Task.cause?, hposted]

/-- A closed stream stays closed. -/
private theorem closed_next (h : Coherent s) (hclosed : s.stream.closed = true) (x : Step) :
    (s.next x).1.stream.closed = true := by
  rcases s.next_cases x with ⟨_, -, -, -, heq⟩ | ⟨_, -, -, heq⟩ | ⟨_, -, -, heq⟩ | ⟨-, -, heq⟩ |
    ⟨-, -, -, -, ⟨-, hstream⟩ | ⟨y, -, hstream⟩⟩
  · rwa [heq]
  · rw [heq]
    rfl
  · rwa [heq]
  · rwa [heq]
  · rwa [hstream]
  · rw [hstream]
    -- No step of the stream itself opens it again.
    exact (Stream.closed_next h.abandoned y).mpr (.inl hclosed)

/-- A cause that has been seen remains the one that has been seen. -/
private theorem seen_next (h : Coherent s) {cause : ShutdownCause} (hseen : s.seen = some cause)
    (x : Step) : (s.next x).1.seen = some cause := by
  rcases s.next_cases x with ⟨_, htask, -⟩ | ⟨other, htask, -, heq⟩ | ⟨other, htask, -, heq⟩ |
    ⟨-, -, heq⟩ | ⟨-, hposted, htask | ⟨hwatching, -⟩, -⟩
  · -- A coordinator that is watching has not seen anything yet.
    have hposted := h.posted_of_ne_finished (by simp [htask])
    simp [seen, Task.cause?, htask, hposted] at hseen
  · simpa [heq, seen, Task.cause?, htask] using hseen
  · simpa [heq, seen, Task.cause?, htask] using hseen
  · rwa [heq]
  · rwa [seen, htask, hposted]
  · have hnone := h.posted_of_ne_finished (by simp [hwatching])
    simp [seen, Task.cause?, hwatching, hnone] at hseen

/-- A cause that has been posted remains posted. -/
private theorem posted_next (h : Coherent s) {cause : ShutdownCause}
    (hposted : s.posted = some cause) (x : Step) : (s.next x).1.posted = some cause := by
  have htask : s.task = .finished := h.finished_iff.mpr (by rw [hposted]; rfl)
  rcases s.next_cases x with ⟨_, hother, -⟩ | ⟨_, hother, -⟩ | ⟨_, hother, -⟩ | ⟨-, -, heq⟩ |
    ⟨-, hsame, -⟩
  · exact absurd hother (by simp [htask])
  · exact absurd hother (by simp [htask])
  · exact absurd hother (by simp [htask])
  · rwa [heq]
  · rwa [hsame]

/-- Once the handle is spent it stays so, and no step leaves a line. -/
private theorem next_of_spent (h : Coherent s) (hspent : s.handle = .spent) (x : Step) :
    (s.next x).1.handle = .spent ∧ (s.next x).2 = [] := by
  rcases s.next_cases x with ⟨_, htask, -⟩ | ⟨_, -, -, heq⟩ | ⟨_, -, -, heq⟩ | ⟨-, hheld, -⟩ |
    ⟨hlines, -, -, hstays, -⟩
  · exact absurd htask (h.spent hspent)
  · rw [heq]
    exact ⟨hspent, rfl⟩
  · rw [heq]
    exact ⟨hspent, rfl⟩
  · exact absurd hspent hheld
  · exact ⟨hstays hspent, hlines⟩

end Coherent

/-! ## What the state tells about the steps -/

/-- A step ends the trigger if it is the first one that may. -/
private theorem trigger_next (s : Shutdown) (x : Step) :
    (s.next x).1.trigger = if s.trigger = .armed then x.ending.getD .armed else s.trigger := by
  cases hx : x.ending with
  | some t =>
    rw [next_of_ending s hx]
    rcases s.endTrigger_cases t with ⟨harmed, heq⟩ | ⟨harmed, heq⟩ <;> simp [heq, harmed]
  | none =>
    -- None of the other steps touches the trigger.
    have hsame : (s.next x).1.trigger = s.trigger := by
      cases x with
      | fire | panic | dropTrigger => simp [Step.ending] at hx
      | turn first =>
        rcases s.turn_cases first with ⟨-, -, heq⟩ |
          ⟨-, ⟨_, -, heq⟩ | ⟨-, heq⟩ | ⟨-, heq⟩⟩ | ⟨_, -, heq⟩ | ⟨_, -, heq⟩ <;> simp [next, heq]
      | disarm => rcases s.disarm_cases with heq | ⟨-, heq⟩ | ⟨-, heq⟩ <;> simp [next, heq]
      | wait =>
        rcases s.wait_cases with ⟨-, heq⟩ | ⟨-, ⟨_, -, heq⟩ | ⟨-, -, heq⟩ | ⟨-, -, heq⟩⟩ <;>
          simp [next, heq]
      | stream x => rfl
    rw [hsame]
    split
    · next harmed => exact harmed
    · rfl

/-- Whether someone other than the coordinator has closed the stream: before the coordinator was
armed, or since. -/
def ClosedElsewhere (stream : Stream) (steps : List Step) : Prop :=
  stream.closed = true ∨ ∃ x ∈ steps, x.closes = true

/-- `ClosedElsewhere` over more steps. -/
private theorem closedElsewhere_append {stream : Stream} {steps more : List Step} :
    ClosedElsewhere stream (steps ++ more) ↔
      ClosedElsewhere stream steps ∨ ∃ x ∈ more, x.closes = true := by
  simp only [ClosedElsewhere, List.mem_append, or_and_right, exists_or, or_assoc]

namespace Course

/-- What a coordinator and the lines so far tell about the steps that have been taken. -/
structure Sound (stream : Stream) (steps : List Step) (c : Course) : Prop where
  coherent : c.state.Coherent
  trigger : c.state.trigger = (steps.findSome? Step.ending).getD .armed
  closed : c.state.stream.closed = true ↔
    ClosedElsewhere stream steps ∨ c.state.task.hasClosed = true
  reader_closed : c.state.seen = some .readerClosed → ClosedElsewhere stream steps
  -- The line about a dead coordinator comes only with the answer that spends the handle.
  lines : c.state.handle ≠ .spent → c.lines = c.state.seen.elim [] toldOf

variable {stream : Stream} {steps : List Step} {c : Course}

/-- The trigger ends by the first step that may end it. -/
private theorem Sound.trigger_step (h : Sound stream steps c) (x : Step) :
    (c.step x).state.trigger = ((steps ++ [x]).findSome? Step.ending).getD .armed := by
  rw [step, trigger_next, h.trigger, List.findSome?_append]
  cases hfirst : steps.findSome? Step.ending with
  | none => cases hx : x.ending <;> simp [hx]
  | some t =>
    -- A trigger that has come to an end may not fire any more.
    obtain ⟨y, -, hy⟩ := List.exists_of_findSome?_eq_some hfirst
    have hne : t ≠ .armed := by
      cases y <;> simp only [Step.ending, Option.some.injEq, reduceCtorEq] at hy <;> simp [← hy]
    simp [hne]

/-- The stream is closed by a step that `closes` it, or by the coordinator. -/
private theorem Sound.closed_step (h : Sound stream steps c) (x : Step) :
    (c.step x).state.stream.closed = true ↔
      ClosedElsewhere stream (steps ++ [x]) ∨ (c.step x).state.task.hasClosed = true := by
  rw [closedElsewhere_append]
  simp only [step, List.mem_singleton, exists_eq_left]
  rcases c.state.next_cases x with ⟨cause, htask, -, hx, heq⟩ | ⟨cause, htask, hx, heq⟩ |
    ⟨cause, htask, hx, heq⟩ | ⟨hx, -, heq⟩ | ⟨-, -, htask, -, hstream⟩
  · simp [heq, hx, h.closed, htask, Task.hasClosed]
  · -- A step that closes the stream does so whoever has closed it before.
    simp [heq, Stream.close, Task.hasClosed]
  · simp [heq, hx, h.closed, htask, Task.hasClosed]
  · simp [heq, hx, h.closed]
  · have hsame : (c.state.next x).1.task.hasClosed = c.state.task.hasClosed := by
      rcases htask with heq | ⟨hwatching, hdead⟩
      · rw [heq]
      · rw [hwatching, hdead]
        rfl
    rcases hstream with ⟨hx, hstream⟩ | ⟨y, rfl, hstream⟩
    · simp [hstream, hx, h.closed, hsame]
    · rw [hstream, Stream.closed_next h.coherent.abandoned, h.closed, hsame, Step.closes]
      exact or_right_comm

/-- `Sound` is kept by every step. -/
private theorem Sound.step (h : Sound stream steps c) (x : Step) :
    Sound stream (steps ++ [x]) (c.step x) where
  coherent := h.coherent.next x
  trigger := h.trigger_step x
  closed := h.closed_step x
  reader_closed := by
    intro hseen
    refine closedElsewhere_append.mpr (.inl ?_)
    rw [Course.step] at hseen
    rcases c.state.next_cases x with ⟨cause, htask, hclosed, -, heq⟩ | ⟨cause, htask, -, heq⟩ |
      ⟨cause, htask, -, heq⟩ | ⟨-, -, heq⟩ | ⟨-, hposted, htask | ⟨hwatching, hdead⟩, -⟩
    · -- The coordinator has found the stream closed and has not closed it itself.
      have hcause : cause = .readerClosed := by simpa [heq, seen, Task.cause?] using hseen
      simpa [htask, Task.hasClosed] using h.closed.mp (hclosed hcause)
    · exact h.reader_closed (by simpa [heq, seen, Task.cause?, htask] using hseen)
    · exact h.reader_closed (by simpa [heq, seen, Task.cause?, htask] using hseen)
    · exact h.reader_closed (by rwa [heq] at hseen)
    · exact h.reader_closed (by rwa [seen, hposted, htask] at hseen)
    · have hnone := h.coherent.posted_of_ne_finished (by simp [hwatching])
      simp [seen, hposted, hdead, Task.cause?, hnone] at hseen
  lines := by
    intro hheld
    rw [Course.step] at hheld ⊢
    rcases c.state.next_cases x with ⟨cause, htask, -, -, heq⟩ | ⟨cause, htask, -, heq⟩ |
      ⟨cause, htask, -, heq⟩ | ⟨-, -, heq⟩ | ⟨hlines, hposted, htask, hstays, -⟩
    · -- There is no line before the cause is seen.
      have hnone := h.coherent.posted_of_ne_finished (by simp [htask])
      have hbefore : c.state.handle ≠ .spent := fun hspent => h.coherent.spent hspent htask
      rw [h.lines hbefore, heq]
      cases cause <;> simp [seen, Task.cause?, htask, hnone, toldOf]
    · have hbefore : c.state.handle ≠ .spent := by rwa [heq] at hheld
      rw [h.lines hbefore, heq]
      simp [seen, Task.cause?, htask]
    · have hbefore : c.state.handle ≠ .spent := by rwa [heq] at hheld
      rw [h.lines hbefore, heq]
      simp [seen, Task.cause?, htask]
    · -- The warning spends the handle.
      exact absurd (congrArg (·.1.handle) heq) hheld
    · rw [hlines, List.append_nil, h.lines fun hspent => hheld (hstays hspent), seen, seen, hposted]
      rcases htask with htask | ⟨hwatching, hdead⟩
      · rw [htask]
      · rw [hwatching, hdead]
        rfl

/-- `Sound` is true after all steps, of a stream whose reader has not gone without closing it. -/
theorem sound_run {stream : Stream} (h : stream.hasReader = false → stream.closed = true)
    (steps : List Step) : Sound stream steps (run stream steps) := by
  -- By induction from the end, since the invariant speaks of all the steps that have been taken.
  induction steps using List.reverseRecOn with
  | nil =>
    constructor
    case coherent => exact Coherent.of_arm h
    all_goals simp [run, arm, ClosedElsewhere, seen, Task.cause?, Task.hasClosed]
  | append_singleton steps x ih =>
    rw [run_append]
    exact ih.step x

/-- A closed stream stays closed. -/
private theorem closed_foldl (h : c.state.Coherent) (hclosed : c.state.stream.closed = true)
    (more : List Step) : (more.foldl step c).state.stream.closed = true := by
  induction more generalizing c with
  | nil => exact hclosed
  | cons x more ih => exact ih (h.next x) (h.closed_next hclosed x)

/-- A cause that has been posted remains posted. -/
private theorem posted_foldl (h : c.state.Coherent) {cause : ShutdownCause}
    (hposted : c.state.posted = some cause) (more : List Step) :
    (more.foldl step c).state.posted = some cause := by
  induction more generalizing c with
  | nil => exact hposted
  | cons x more ih => exact ih (h.next x) (h.posted_next hposted x)

/-- A cause that has been seen remains the one that has been seen. -/
private theorem seen_foldl (h : c.state.Coherent) {cause : ShutdownCause}
    (hseen : c.state.seen = some cause) (more : List Step) :
    (more.foldl step c).state.seen = some cause := by
  induction more generalizing c with
  | nil => exact hseen
  | cons x more ih => exact ih (h.next x) (h.seen_next hseen x)

/-- No step leaves a line once the handle is spent. -/
private theorem lines_foldl_of_spent (h : c.state.Coherent) (hspent : c.state.handle = .spent)
    (more : List Step) : (more.foldl step c).lines = c.lines := by
  induction more generalizing c with
  | nil => rfl
  | cons x more ih =>
    obtain ⟨hstays, htold⟩ := h.next_of_spent hspent x
    rw [List.foldl_cons, ih (h.next x) hstays, step, htold, List.append_nil]

end Course

/-! ## Coming to an end -/

/-- What there is to see remains there to be seen. -/
private theorem Coherent.ready_next {s : Shutdown} (h : Coherent s) (hready : s.Ready) (x : Step) :
    (s.next x).1.Ready := by
  rcases hready with hclosed | hended
  · exact .inl (h.closed_next hclosed x)
  · -- A trigger that has come to an end stays as it is.
    have hne : s.trigger ≠ .armed := by
      rcases hended with ⟨name, heq⟩ | heq <;> simp [heq]
    rw [Ready, trigger_next, if_neg hne]
    exact .inr hended

/-- A coordinator that is `Ready` needs one turn less after each of its turns, and no more after any
other step. -/
private theorem turnsLeft_next {s : Shutdown} (hready : s.Ready) (x : Step) :
    (s.next x).1.task.turnsLeft + (if x.isTurn then 1 else 0) ≤ s.task.turnsLeft ∨
      (s.next x).1.task.turnsLeft = 0 := by
  cases x with
  | fire | panic | dropTrigger =>
    obtain ⟨htask, -⟩ := s.endTrigger_same _
    exact .inl (Nat.le_of_eq (congrArg Task.turnsLeft htask))
  | turn first =>
    rcases s.turn_cases first with ⟨hidle, hcause, heq⟩ |
      ⟨htask, ⟨_, -, heq⟩ | ⟨-, heq⟩ | ⟨-, heq⟩⟩ | ⟨_, htask, heq⟩ | ⟨_, htask, heq⟩
    · -- A turn has nothing to do only if the task has ended.
      refine .inr ?_
      simp only [next, heq]
      cases htask : s.task with
      | watching => exact absurd hready (hidle htask)
      | closing | posting => simp [htask, Task.cause?] at hcause
      | finished | dead => rfl
    all_goals simp [next, heq, htask, Task.turnsLeft, Step.isTurn]
  | disarm =>
    rcases s.disarm_cases with heq | ⟨-, heq⟩ | ⟨-, heq⟩
    · exact .inl (by simp [next, heq, Step.isTurn])
    · exact .inr (by simp [next, heq, Task.turnsLeft])
    · exact .inl (by simp [next, heq, Step.isTurn])
  | wait =>
    refine .inl ?_
    rcases s.wait_cases with ⟨-, heq⟩ | ⟨-, ⟨_, -, heq⟩ | ⟨-, -, heq⟩ | ⟨-, -, heq⟩⟩ <;>
      simp [next, heq, Step.isTurn]
  | stream y => exact .inl (Nat.le_refl _)

/-- A coordinator that is `Ready` needs one turn less for each turn of its own that it takes,
whatever else happens between them. -/
private theorem turnsLeft_foldl {c : Course} (h : c.state.Coherent) (hready : c.state.Ready)
    (more : List Step) :
    (more.foldl Course.step c).state.task.turnsLeft ≤
      c.state.task.turnsLeft - more.countP Step.isTurn := by
  induction more generalizing c with
  | nil => exact Nat.le_refl _
  | cons x more ih =>
    have hrest := ih (c := c.step x) (h.next x) (h.ready_next hready x)
    have hstep := turnsLeft_next hready x
    simp only [List.foldl_cons, List.countP_cons]
    simp only [Course.step] at hrest hstep ⊢
    omega

/-- A coordinator that is `Ready` comes to its end by three turns of its own, whatever else happens
between them. -/
theorem ended_foldl {c : Course} (h : c.state.Coherent) (hready : c.state.Ready) (more : List Step)
    (hturns : 3 ≤ more.countP Step.isTurn) :
    (more.foldl Course.step c).state.task.ended = true := by
  have hleft := turnsLeft_foldl h hready more
  have hmost : c.state.task.turnsLeft ≤ 3 := by cases c.state.task <;> simp [Task.turnsLeft]
  exact Task.ended_iff.mpr (by omega)

/-- A coordinator that is watching while the trigger has fired and the stream is closed posts, by
its next three turns, the cause at which it looks in the first of them. -/
private theorem posted_foldl_of_both {c : Course} {name : String} (h : c.state.Coherent)
    (htask : c.state.task = .watching) (hclosed : c.state.stream.closed = true)
    (hfired : c.state.trigger = .fired name) (first : Glance) (more : List Step)
    (hturns : 2 ≤ more.countP Step.isTurn) :
    (more.foldl Course.step (c.step (.turn first))).state.posted = some (seenFirst name first) := by
  -- After its turn the coordinator has seen its cause, which nothing changes any more.
  have hturn : (c.step (.turn first)).state =
      { c.state with task := .closing (seenFirst name first) } :=
    turn_of_both htask hclosed hfired first
  have hnext : (c.step (.turn first)).state.Coherent := h.next (.turn first)
  have hseen := Course.seen_foldl hnext (by rw [hturn]; rfl) more
  -- Two turns are left to it, and that many are taken.
  have hready : (c.step (.turn first)).state.Ready := h.ready_next (.inl hclosed) _
  have hleft := turnsLeft_foldl hnext hready more
  rw [hturn] at hleft
  simp only [Task.turnsLeft] at hleft
  have hended := Task.ended_iff.mpr (Nat.eq_zero_of_le_zero (Nat.le_trans hleft (by omega)))
  simpa [seen, Task.cause?_of_ended hended] using hseen

/-! ## What `wait` answers -/

namespace Coherent

variable {s : Shutdown}

/-- `wait` answers with `lostLine` exactly if the task has `ended` and nothing is `posted`. -/
private theorem lost_iff (h : Coherent s) :
    s.wait.1 = .cause .readerClosed ∧ s.wait.2.2 = [lostLine] ↔
      s.handle ≠ .spent ∧ s.task.ended = true ∧ s.posted = none := by
  have hfinished := h.finished_iff
  rcases s.wait_cases with ⟨hspent, heq⟩ | ⟨hheld, ⟨cause, hposted, heq⟩ | ⟨hnone, htask, heq⟩ |
    ⟨hnone, htask, heq⟩⟩
  · simp [heq, hspent]
  · simp [heq, hposted]
  · simp [heq, hheld, hnone, htask, Task.ended]
  · -- `wait` is pending, so the task is not dead; one that has finished has posted.
    cases hwatch : s.task <;> simp_all [Task.ended]

/-- `wait` is `pending` as long as the task has not `ended` and the handle is not `spent`. -/
private theorem wait_pending (h : Coherent s) (hended : s.task.ended = false)
    (hheld : s.handle ≠ .spent) : s.wait.1 = .pending := by
  have hnone : s.posted = none :=
    h.posted_of_ne_finished fun htask => by simp [htask, Task.ended] at hended
  rcases s.wait_cases with ⟨hspent, -⟩ | ⟨-, ⟨cause, hposted, -⟩ | ⟨-, hdead, -⟩ | ⟨-, -, heq⟩⟩
  · exact absurd hspent hheld
  · simp [hnone] at hposted
  · simp [hdead, Task.ended] at hended
  · rw [heq]

/-- `wait` answers once the task has `ended`, if the handle is not `spent`. -/
private theorem wait_answers (h : Coherent s) (hended : s.task.ended = true)
    (hheld : s.handle ≠ .spent) : ∃ cause, s.wait.1 = .cause cause := by
  rcases s.wait_cases with
    ⟨hspent, -⟩ | ⟨-, ⟨cause, -, heq⟩ | ⟨-, -, heq⟩ | ⟨hnone, halive, -⟩⟩
  · exact absurd hspent hheld
  · exact ⟨cause, by rw [heq]⟩
  · exact ⟨.readerClosed, by rw [heq]⟩
  · -- A task that has finished has posted, so that this one is dead.
    cases htask : s.task with
    | finished => simpa [hnone] using h.finished_iff.mp htask
    | dead => exact absurd htask halive
    | watching | closing | posting => simp [htask, Task.ended] at hended

end Coherent

namespace Course.Sound

variable {stream : Stream} {steps : List Step} {c : Course}

/-- `wait` answers `signal name` only if the first step that ends the trigger fired it with `name`,
and then `receivedLine name` is the only line. -/
private theorem signal_of_wait (h : Sound stream steps c) {name : String}
    (hwait : c.state.wait.1 = .cause (.signal name)) :
    steps.findSome? Step.ending = some (.fired name) ∧
      c.lines ++ c.state.wait.2.2 = [receivedLine name] := by
  rcases c.state.wait_cases with
    ⟨-, heq⟩ | ⟨hheld, ⟨cause, hcause, heq⟩ | ⟨-, -, heq⟩ | ⟨-, -, heq⟩⟩ <;>
    simp only [heq, Answer.cause.injEq, reduceCtorEq] at hwait
  subst hwait
  have hseen := h.coherent.seen_of_posted hcause
  constructor
  · -- What has been posted names the end of the trigger, which is that of its first step.
    have htrigger := h.trigger.symm.trans (h.coherent.signal name hseen)
    cases hfirst : steps.findSome? Step.ending <;> simp_all
  · rw [h.lines hheld, hseen, heq]
    rfl

/-- `wait` answers `readerClosed` without a line only if the stream is `ClosedElsewhere`, and then
there is no line before either. -/
private theorem readerClosed_of_wait (h : Sound stream steps c)
    (hwait : c.state.wait.1 = .cause .readerClosed) (htold : c.state.wait.2.2 = []) :
    ClosedElsewhere stream steps ∧ c.lines = [] := by
  rcases c.state.wait_cases with
    ⟨-, heq⟩ | ⟨hheld, ⟨cause, hcause, heq⟩ | ⟨-, -, heq⟩ | ⟨-, -, heq⟩⟩ <;>
    simp only [heq, Answer.cause.injEq, reduceCtorEq] at hwait htold
  -- Without a warning the answer has been posted.
  subst hwait
  have hseen := h.coherent.seen_of_posted hcause
  exact ⟨h.reader_closed hseen, by rw [h.lines hheld, hseen]; rfl⟩

/-- Unless the task has closed the stream, it is closed exactly if it is `ClosedElsewhere`. -/
private theorem closed_of_unposted (h : Sound stream steps c)
    (hnotPosting : ∀ cause, c.state.task ≠ .posting cause) (hnone : c.state.posted = none) :
    c.state.stream.closed = true ↔ ClosedElsewhere stream steps := by
  have hnot : c.state.task.hasClosed = false := by
    cases htask : c.state.task with
    | posting cause => exact absurd htask (hnotPosting cause)
    | finished => simpa [hnone] using h.coherent.finished_iff.mp htask
    | watching | closing | dead => rfl
  simpa [hnot] using h.closed

end Course.Sound

/-! ## What is posted, and what is answered -/

/-- What is true of a coordinator for a stream at any time.  `steps` are the steps that have been
taken so far, and `c` is what has come of them. -/
structure Safe (stream : Stream) (steps : List Step) (c : Course) : Prop where
  /-- A closed stream stays closed. -/
  closed_stays : c.state.stream.closed = true →
    ∀ more, (run stream (steps ++ more)).state.stream.closed = true
  /-- `posted` is set once and for all, and from then on every `read` of the stream answers
  `closed`. -/
  posted_once : ∀ cause, c.state.posted = some cause → ∀ more,
    let t := (run stream (steps ++ more)).state
    t.posted = some cause ∧ t.stream.closed = true ∧
      (t.stream.hasReader = true → t.stream.read.1 = .failed .closed)
  /-- The stream is closed before `posted` is set: a `read` may answer `closed` while `wait` is
  still pending, and never the other way round. -/
  closed_first : ∀ cause, c.state.task = .posting cause →
    c.state.posted = none ∧ c.state.stream.closed = true
  /-- `wait` answers `signal name` only if the trigger fired with `name`, and then `receivedLine
  name` is the only line. -/
  signal : ∀ name, c.state.wait.1 = .cause (.signal name) →
    steps.findSome? Step.ending = some (.fired name) ∧
      c.lines ++ c.state.wait.2.2 = [receivedLine name]
  /-- `wait` answers `readerClosed` without `lostLine` only if the stream is `ClosedElsewhere`, and
  then there is no line. -/
  reader_closed : c.state.wait.1 = .cause .readerClosed → c.state.wait.2.2 = [] →
    ClosedElsewhere stream steps ∧ c.lines = []
  /-- `wait` answers with `lostLine` exactly if the task has ended and `posted` is not set. -/
  lost_iff : c.state.wait.1 = .cause .readerClosed ∧ c.state.wait.2.2 = [lostLine] ↔
    c.state.handle ≠ .spent ∧ c.state.task.ended = true ∧ c.state.posted = none
  /-- Unless the task is about to post or has posted, the coordinator has not closed the stream. -/
  unposted : (∀ cause, c.state.task ≠ .posting cause) → c.state.posted = none →
    (c.state.stream.closed = true ↔ ClosedElsewhere stream steps)
  /-- `wait` is pending as long as the task is watching, and as long as it goes on afterwards unless
  the handle has been spent by `disarm`. -/
  patient : c.state.task = .watching ∨ c.state.task.ended = false ∧ c.state.handle ≠ .spent →
    c.state.wait.1 = .pending
  /-- `wait` answers as soon as the task has ended, unless the handle is spent. -/
  answers : c.state.task.ended = true → c.state.handle ≠ .spent →
    ∃ cause, c.state.wait.1 = .cause cause
  /-- If the stream is closed, or the trigger has fired or panicked, then the task ends by three
  turns of its own, whatever else happens between them. -/
  ends : c.state.Ready → ∀ more, 3 ≤ more.countP Step.isTurn →
    (run stream (steps ++ more)).state.task.ended = true
  /-- If the trigger has fired and the stream is closed when the coordinator has its turn, then it
  posts the cause at which it looks first, and this may be either. -/
  race : c.state.task = .watching → c.state.stream.closed = true →
    ∀ name, c.state.trigger = .fired name → ∀ first more, 2 ≤ more.countP Step.isTurn →
      (run stream (steps ++ .turn first :: more)).state.posted = some (seenFirst name first)
  /-- There are no more lines once the handle is spent. -/
  quiet : c.state.handle = .spent → ∀ more, (run stream (steps ++ more)).lines = c.lines

/-- `Safe` is true of a coordinator after any `steps`, for a stream with any `past`: it posts one
cause at most, closes the stream before, and `wait` answers with the cause that ended it. -/
theorem run_posts_once_after_closing (name : String) (capacity : Nat) (past : List Stream.Step)
    (steps : List Step) :
    let stream := ((Stream.channel name capacity).run past).stream
    Safe stream steps (run stream steps) := by
  intro stream
  have hstream : stream.hasReader = false → stream.closed = true :=
    (Stream.Course.kept_run name capacity past).closed_of_gone
  have h := Course.sound_run hstream steps
  generalize hcourse : run stream steps = c at h
  have hcoherent := h.coherent
  have hafter (more : List Step) :
      Course.Sound stream (steps ++ more) (run stream (steps ++ more)) :=
    Course.sound_run hstream (steps ++ more)
  have hposted {cause : ShutdownCause} (hcause : c.state.posted = some cause) (more : List Step) :
      (run stream (steps ++ more)).state.posted = some cause := by
    rw [run_append, hcourse]
    exact Course.posted_foldl hcoherent hcause more
  constructor
  case closed_stays =>
    intro hclosed more
    rw [run_append, hcourse]
    exact Course.closed_foldl hcoherent hclosed more
  case posted_once =>
    intro cause hcause more
    have htask := (hafter more).coherent.finished_iff.mpr (by rw [hposted hcause more]; rfl)
    have hclosed := (hafter more).coherent.closed (by rw [htask]; rfl)
    refine ⟨hposted hcause more, hclosed, fun hreader => ?_⟩
    rw [Stream.read_of_closed hreader hclosed]
  case closed_first =>
    intro cause htask
    exact ⟨hcoherent.posted_of_ne_finished (by simp [htask]),
      hcoherent.closed (by rw [htask]; rfl)⟩
  case signal => exact fun _ => h.signal_of_wait
  case reader_closed => exact h.readerClosed_of_wait
  case lost_iff => exact hcoherent.lost_iff
  case unposted => exact h.closed_of_unposted
  case patient =>
    intro hgoes
    rcases hgoes with hwatch | ⟨hended, hheld⟩
    · -- A handle is spent only when the task is no longer watching.
      exact hcoherent.wait_pending (by rw [hwatch]; rfl) fun hspent => hcoherent.spent hspent hwatch
    · exact hcoherent.wait_pending hended hheld
  case answers => exact hcoherent.wait_answers
  case ends =>
    intro hready more hturns
    rw [run_append, hcourse]
    exact ended_foldl hcoherent hready more hturns
  case race =>
    intro htask hclosed n hfired first more hturns
    rw [run_append, hcourse, List.foldl_cons]
    exact posted_foldl_of_both hcoherent htask hclosed hfired first more hturns
  case quiet =>
    intro hspent more
    rw [run_append, hcourse]
    exact Course.lines_foldl_of_spent hcoherent hspent more

/-- Between the two turns by which the stream is closed and the cause is posted, a `read` answers
`closed` already, and `wait` is still pending. -/
example :
    let s := (run (.channel "ipv4_events" 4)
      [.fire "SIGTERM", .turn .trigger, .turn .trigger]).state
    s.stream.read.1 = .failed .closed ∧ s.wait.1 = .pending := by
  decide

end EgressControl.Shutdown
