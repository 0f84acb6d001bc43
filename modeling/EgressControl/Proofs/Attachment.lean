import EgressControl.Attachment

/-!
# Attaching all programs, or none

What becomes of a list of programs is told by what becomes of each of them: to what it is bound
(`binding?`), with which failure (`failure?`), and what happens in its turn (`turn`).  Programs that
do not fail have their turns one after the other (`attachEach_append`), and a program that fails has
the last one (`attachEach_cons`).

If no program fails, the attachments are made and kept (`Batch.Completed`).  If one does, those that
were made before are given back, and the programs after it are not looked at (`Batch.RolledBack`).
One of the two is always so, and the order of the programs has no say in which one it is, nor in
what they are bound to (`attachAll_all_or_none`).
-/

namespace EgressControl.Attachment

variable {π : Type}

/-! ## What happens -/

/-- The attachment that is tried. -/
@[simp] def Event.attempted? : Event → Option Attachment
  | .attempt a => some a
  | _ => none

/-- The attachment that is made. -/
@[simp] def Event.acquired? : Event → Option Attachment
  | .acquire a => some a
  | _ => none

/-- The attachment that is given back. -/
@[simp] def Event.released? : Event → Option Attachment
  | .release a => some a
  | _ => none

/-- The line that is logged, if it is a warning. -/
@[simp] def Event.warning? : Event → Option Log.Line
  | .log line => if line.level = .warn then some line else none
  | _ => none

/-- What happens when the result is given up: the attachments that are held are given back. -/
def Batch.dropped (b : Batch π) : List Event :=
  match b.result with
  | .ok made => made.map .release
  | .error _ => []

/-! ## The turn of one program -/

section

variable (binder : HookBinder π) (overrides : Table String String) (p : String × π)

/-- To what a program is bound, if it is of a known kind. -/
def binding? : Option Attachment :=
  (binder.kind? p.2).map fun kind => ⟨p.1, .resolve overrides kind p.1⟩

/-- The failure to bind a program to its target. -/
def failure? : Option AttachError :=
  match binding? binder overrides p with
  | none => none
  | some a =>
    match (binder.attach p.2 p.1 a.target).1 with
    | .error e => some e
    | .ok () => none

/-- A program after its turn.  One of an unknown kind is left as it is. -/
def afterTurn : String × π :=
  match binding? binder overrides p with
  | none => p
  | some a => (p.1, (binder.attach p.2 p.1 a.target).2)

/-- The warning about a program of an unknown kind. -/
def warning? : Option Log.Line :=
  match binder.kind? p.2 with
  | none => some (skipLine p.1)
  | some _ => none

/-- What happens in the turn of a program. -/
def turn : List Event :=
  match binder.kind? p.2 with
  | none => [.log (skipLine p.1)]
  | some kind =>
    let a : Attachment := ⟨p.1, .resolve overrides kind p.1⟩
    match failure? binder overrides p with
    | some _ => [.log (linkLine kind a), .attempt a]
    | none => [.log (linkLine kind a), .attempt a, .acquire a]

end

variable {binder : HookBinder π} {overrides : Table String String} {p : String × π}

/-- A program that fails is of a known kind. -/
private theorem kind?_of_failure {e : AttachError} (h : failure? binder overrides p = some e) :
    ∃ kind, binder.kind? p.2 = some kind := by
  cases hkind : binder.kind? p.2 with
  | none => simp [failure?, binding?, hkind] at h
  | some kind => exact ⟨kind, rfl⟩

/-- A program attempts its own binding, if it has any (`binding?`). -/
private theorem attempted?_turn :
    (turn binder overrides p).filterMap Event.attempted? =
      (binding? binder overrides p).toList := by
  cases hkind : binder.kind? p.2 <;> cases hfailure : failure? binder overrides p <;>
    simp [turn, binding?, hkind, hfailure, List.filterMap_cons]

/-- A program that does not fail acquires the binding that it attempts. -/
private theorem acquired?_turn (h : failure? binder overrides p = none) :
    (turn binder overrides p).filterMap Event.acquired? = (binding? binder overrides p).toList := by
  cases hkind : binder.kind? p.2 <;> simp [turn, binding?, hkind, h, List.filterMap_cons]

/-- A program that fails acquires nothing. -/
private theorem acquired?_turn_of_failure {e : AttachError}
    (h : failure? binder overrides p = some e) :
    (turn binder overrides p).filterMap Event.acquired? = [] := by
  obtain ⟨kind, hkind⟩ := kind?_of_failure h
  simp [turn, hkind, h]

/-- Nothing is released while a program is being attached. -/
private theorem released?_turn : (turn binder overrides p).filterMap Event.released? = [] := by
  cases hkind : binder.kind? p.2 <;> cases hfailure : failure? binder overrides p <;>
    simp [turn, hkind, hfailure]

/-- A program is warned of at most once, in its own turn. -/
private theorem warning?_turn :
    (turn binder overrides p).filterMap Event.warning? = (warning? binder p).toList := by
  cases hkind : binder.kind? p.2 <;> cases hfailure : failure? binder overrides p <;>
    simp [turn, warning?, hkind, hfailure, skipLine, linkLine, Log.Line.warn, Log.Line.info]

/-! ## The turns of several programs -/

/-- What is picked out of several turns is what is picked out of each. -/
private theorem filterMap_turns {β : Type} {f : Event → Option β} {g : String × π → Option β}
    {programs : List (String × π)}
    (h : ∀ p ∈ programs, (turn binder overrides p).filterMap f = (g p).toList) :
    (programs.flatMap (turn binder overrides)).filterMap f = programs.filterMap g := by
  induction programs with
  | nil => rfl
  | cons p rest ih =>
    rw [List.flatMap_cons, List.filterMap_append, h p (by simp),
      ih fun q hq => h q (List.mem_cons_of_mem _ hq), List.filterMap_cons]
    cases g p <;> rfl

/-- Nothing is released while programs are being attached. -/
private theorem released?_turns (programs : List (String × π)) :
    (programs.flatMap (turn binder overrides)).filterMap Event.released? = [] := by
  simp [List.filterMap_flatMap, released?_turn]

/-- One program has its turn.  If it fails that is all, and else it goes on with the rest. -/
theorem attachEach_cons (rest : List (String × π)) :
    attachEach binder overrides (p :: rest) =
      match failure? binder overrides p with
      | some e => ⟨afterTurn binder overrides p :: rest, turn binder overrides p, [], some e⟩
      | none =>
        let b := attachEach binder overrides rest
        ⟨afterTurn binder overrides p :: b.programs, turn binder overrides p ++ b.events,
          (binding? binder overrides p).toList ++ b.made, b.failure⟩ := by
  obtain ⟨name, q⟩ := p
  cases hkind : binder.kind? q with
  | none => simp [attachEach, failure?, afterTurn, turn, binding?, hkind]
  | some kind =>
    -- The failure, the program afterwards and the events all come from this one call.
    rcases hattach : binder.attach q name (.resolve overrides kind name) with ⟨_ | _, q'⟩ <;>
      simp [attachEach, failure?, afterTurn, turn, binding?, hkind, hattach]

/-- Programs that do not fail have their turns, and then it goes on with the rest. -/
theorem attachEach_append {before : List (String × π)} (rest : List (String × π))
    (h : ∀ p ∈ before, failure? binder overrides p = none) :
    let b := attachEach binder overrides rest
    attachEach binder overrides (before ++ rest) =
      ⟨before.map (afterTurn binder overrides) ++ b.programs,
        before.flatMap (turn binder overrides) ++ b.events,
        before.filterMap (binding? binder overrides) ++ b.made, b.failure⟩ := by
  intro b
  induction before with
  | nil => rfl
  | cons p before ih =>
    obtain ⟨hp, hbefore⟩ := List.forall_mem_cons.mp h
    rw [List.cons_append, attachEach_cons, hp, ih hbefore]
    cases hbinding : binding? binder overrides p <;> simp [hbinding]

/-- The programs have their turns, and then their number is told. -/
private theorem attachAll_of_none_fails {programs : List (String × π)}
    (h : ∀ p ∈ programs, failure? binder overrides p = none) :
    let made := programs.filterMap (binding? binder overrides)
    attachAll binder overrides programs =
      ⟨programs.map (afterTurn binder overrides),
        programs.flatMap (turn binder overrides) ++ [.log (countLine made.length)], made,
        none⟩ := by
  have heach := attachEach_append [] h
  simp only [List.append_nil, attachEach] at heach
  simp only [attachAll, heach]

/-- The programs have their turns up to the first that fails, and then the attachments
made are given back. -/
private theorem attachAll_of_first_fails {before rest : List (String × π)} {k : String × π}
    {e : AttachError} (h : ∀ p ∈ before, failure? binder overrides p = none)
    (hk : failure? binder overrides k = some e) :
    let made := before.filterMap (binding? binder overrides)
    attachAll binder overrides (before ++ k :: rest) =
      ⟨(before ++ [k]).map (afterTurn binder overrides) ++ rest,
        (before ++ [k]).flatMap (turn binder overrides) ++ made.map .release, made, some e⟩ := by
  have heach := attachEach_append (k :: rest) h
  simp only [attachEach_cons, hk, List.append_nil] at heach
  simp [attachAll, heach]

/-! ## All of them, or none -/

/-- Every program with a `binding?` has been attempted and acquired, in order, and none has been
released: the attachments are the `result`, and dropping it releases each once.  Every other program
has one `warning?`. -/
structure Batch.Completed (binder : HookBinder π) (overrides : Table String String)
    (programs : List (String × π)) (b : Batch π) : Prop where
  result : b.result = .ok (programs.filterMap (binding? binder overrides))
  attempted : b.events.filterMap Event.attempted? = programs.filterMap (binding? binder overrides)
  acquired : b.events.filterMap Event.acquired? = programs.filterMap (binding? binder overrides)
  warned : b.events.filterMap Event.warning? = programs.filterMap (warning? binder)
  kept : b.events.filterMap Event.released? = []
  dropped : b.dropped.filterMap Event.released? = programs.filterMap (binding? binder overrides)
  programs : b.programs = programs.map (afterTurn binder overrides)

/-- Program `k` has failed with `e`.  The bindings of `before` have been acquired and then released,
each once and after all other events, and `rest` is as it was. -/
structure Batch.RolledBack (binder : HookBinder π) (overrides : Table String String)
    (before : List (String × π)) (k : String × π) (rest : List (String × π)) (e : AttachError)
    (b : Batch π) : Prop where
  result : b.result = .error e
  attempted : b.events.filterMap Event.attempted? =
    (before ++ [k]).filterMap (binding? binder overrides)
  acquired : b.events.filterMap Event.acquired? = before.filterMap (binding? binder overrides)
  warned : b.events.filterMap Event.warning? = before.filterMap (warning? binder)
  released : b.events.filterMap Event.released? = before.filterMap (binding? binder overrides)
  released_last : (before.filterMap (binding? binder overrides)).map .release <:+ b.events
  dropped : b.dropped = []
  programs : b.programs = (before ++ [k]).map (afterTurn binder overrides) ++ rest

/-- If no program fails, all of them are attached (`Completed`). -/
private theorem attachAll_completed {programs : List (String × π)}
    (h : ∀ p ∈ programs, failure? binder overrides p = none) :
    (attachAll binder overrides programs).Completed binder overrides programs := by
  -- The line that counts the links is no warning.
  have hcount (n : Nat) : (countLine n).level ≠ .warn := by simp [countLine, Log.Line.info]
  rw [attachAll_of_none_fails h]
  exact {
    result := rfl
    attempted := by
      rw [List.filterMap_append, filterMap_turns fun p _ => attempted?_turn]
      simp
    acquired := by
      rw [List.filterMap_append, filterMap_turns fun p hp => acquired?_turn (h p hp)]
      simp
    warned := by
      rw [List.filterMap_append, filterMap_turns fun p _ => warning?_turn]
      simp [hcount]
    kept := by
      rw [List.filterMap_append, released?_turns]
      simp
    dropped := by simp [Batch.dropped, Batch.result, List.filterMap_map, Function.comp_def]
    programs := rfl }

/-- If `k` is the first program that fails, what was attached before it is given up again, and
nothing behind it is attempted (`RolledBack`). -/
private theorem attachAll_rolledBack {before rest : List (String × π)} {k : String × π}
    {e : AttachError}
    (h : ∀ p ∈ before, failure? binder overrides p = none)
    (hk : failure? binder overrides k = some e) :
    (attachAll binder overrides (before ++ k :: rest)).RolledBack binder overrides before k rest
      e := by
  obtain ⟨kind, hkind⟩ := kind?_of_failure hk
  rw [attachAll_of_first_fails h hk]
  exact {
    result := rfl
    attempted := by
      rw [List.filterMap_append, filterMap_turns fun p _ => attempted?_turn]
      simp [List.filterMap_map, Function.comp_def]
    acquired := by
      -- The turn of `k` stands apart, for nothing is acquired in it.
      rw [List.filterMap_append, List.flatMap_append, List.filterMap_append,
        filterMap_turns fun p hp => acquired?_turn (h p hp)]
      simp [acquired?_turn_of_failure hk, List.filterMap_map, Function.comp_def]
    warned := by
      rw [List.filterMap_append, filterMap_turns fun p _ => warning?_turn]
      simp [warning?, hkind, List.filterMap_map, Function.comp_def]
    released := by
      rw [List.filterMap_append, released?_turns]
      simp [List.filterMap_map, Function.comp_def]
    released_last := List.suffix_append _ _
    dropped := rfl
    programs := rfl }

/-- Either no program fails, or one of them is the first to fail. -/
private theorem none_or_first_fails (programs : List (String × π)) :
    (∀ p ∈ programs, failure? binder overrides p = none) ∨
      ∃ before k rest e, programs = before ++ k :: rest ∧
        (∀ p ∈ before, failure? binder overrides p = none) ∧
        failure? binder overrides k = some e := by
  cases hfirst : programs.findSome? (failure? binder overrides) with
  | none => exact .inl (List.findSome?_eq_none_iff.mp hfirst)
  | some e =>
    obtain ⟨before, k, rest, hprograms, hk, hbefore⟩ := List.findSome?_eq_some_iff.mp hfirst
    exact .inr ⟨before, k, rest, e, hprograms, hbefore, hk⟩

/-- A list of programs is attached exactly if none of them fails. -/
private theorem isOk_attachAll_iff {programs : List (String × π)} :
    (attachAll binder overrides programs).result.isOk = true ↔
      ∀ p ∈ programs, failure? binder overrides p = none := by
  constructor
  · intro hok
    rcases none_or_first_fails programs with hnone | ⟨before, k, rest, e, rfl, hbefore, hk⟩
    · exact hnone
    · rw [(attachAll_rolledBack hbefore hk).result] at hok
      simp [Except.isOk, Except.toBool] at hok
  · intro hnone
    rw [(attachAll_completed hnone).result]
    rfl

/-- If no program has a `failure?`, the batch is `Completed`; otherwise it is `RolledBack` with
the failure of the first program that has one.  In any other order of the programs the result is a
success exactly if it is one in this order, and the attachments are then the same up to order. -/
theorem attachAll_all_or_none (binder : HookBinder π) (overrides : Table String String)
    (programs : List (String × π)) :
    ((∀ p ∈ programs, failure? binder overrides p = none) ∧
        (attachAll binder overrides programs).Completed binder overrides programs ∨
      ∃ before k rest e, programs = before ++ k :: rest ∧
        (∀ p ∈ before, failure? binder overrides p = none) ∧
        failure? binder overrides k = some e ∧
        (attachAll binder overrides programs).RolledBack binder overrides before k rest e) ∧
    ∀ others, others.Perm programs →
      (attachAll binder overrides others).result.isOk =
        (attachAll binder overrides programs).result.isOk ∧
      ∀ made made', (attachAll binder overrides others).result = .ok made →
        (attachAll binder overrides programs).result = .ok made' → made.Perm made' := by
  refine ⟨?_, fun others hperm => ⟨?_, ?_⟩⟩
  · rcases none_or_first_fails programs with hnone | ⟨before, k, rest, e, rfl, hbefore, hk⟩
    · exact .inl ⟨hnone, attachAll_completed hnone⟩
    · exact .inr ⟨before, k, rest, e, rfl, hbefore, hk, attachAll_rolledBack hbefore hk⟩
  · rw [Bool.eq_iff_iff, isOk_attachAll_iff, isOk_attachAll_iff]
    exact forall_congr' fun p => by rw [hperm.mem_iff]
  · intro made made' hmade hmade'
    -- Both are the bindings of a whole list, and not only of those before a failure.
    have hall : ∀ p ∈ programs, failure? binder overrides p = none :=
      isOk_attachAll_iff.mp (by rw [hmade']; rfl)
    have hothers : ∀ p ∈ others, failure? binder overrides p = none := fun p hp =>
      hall p (hperm.mem_iff.mp hp)
    rw [(attachAll_completed hall).result] at hmade'
    rw [(attachAll_completed hothers).result] at hmade
    rw [← Except.ok.inj hmade, ← Except.ok.inj hmade']
    exact hperm.filterMap _

/-- The third program fails: the first is given back, and the last is never tried. -/
example :
    let binder : HookBinder (Option HookKind × Bool) :=
      ⟨(·.1), fun p name target =>
        (if name = "broken" then .error (.targetMismatch name target.text) else .ok (),
          (p.1, true))⟩
    let b := attachAll binder .empty
      [("first", some .functionEntry, false), ("xdp_prog", none, false),
        ("broken", some .tracing, false), ("never", some .cgroupEgress, false)]
    b.events.filterMap Event.released? = [⟨"first", .symbol "first"⟩] ∧
      b.programs.map (·.2.2) = [true, false, true, false] := by
  decide +kernel

end EgressControl.Attachment
