import EgressControl.Proofs.Engine.Trace

/-!
# Putting pieces of setting up together

A piece of setting up ends well, and then it holds what it acquired (`Part.Succeeds`), or it fails,
and then it has given back what it held (`Part.Fails`).  In both cases its effects go through the
phases in their order, and the last phase of a failure is the one that the failure names.

`succeeds_of_phase` and `fails_of_phase` are for pieces that belong to one phase; `bind_succeeds`,
`bind_fails`, `releasing_fails` and so on put pieces together.
-/

namespace EgressControl.Engine

open Effect (Spans Within Work Cleanup phases acquired released)

/-! ## One step of setting up -/

section

variable {α ε ε' : Type} (f : ε → ε')

@[simp] theorem mapError_ok (a : α) : (Except.ok a : Except ε α).mapError f = .ok a := rfl

@[simp] theorem mapError_error (e : ε) :
    (Except.error e : Except ε α).mapError f = .error (f e) := rfl

end

namespace Setup

variable {α β : Type} (maps : KernelMaps)

@[simp] theorem pure_apply (a : α) : (Pure.pure a : Setup α) maps = ⟨[], maps, .ok a⟩ := rfl

@[simp] theorem emit_apply (es : List Effect) : emit es maps = ⟨es, maps, .ok ()⟩ := rfl

@[simp] theorem emit_bind (es : List Effect) (f : Unit → Setup β) :
    (emit es >>= f) maps = { f () maps with effects := es ++ (f () maps).effects } := rfl

@[simp] theorem lift_apply (r : Except SetupError α) : lift r maps = ⟨[], maps, r⟩ := rfl

@[simp] theorem lift_ok_bind (a : α) (f : α → Setup β) :
    (lift (.ok a) >>= f) maps = f a maps := rfl

@[simp] theorem lift_error_bind (e : SetupError) (f : α → Setup β) :
    (lift (.error e) >>= f) maps = ⟨[], maps, .error e⟩ := rfl

@[simp] theorem maps_bind (f : KernelMaps → Setup β) :
    (Setup.maps >>= f) maps = f maps maps := rfl

@[simp] theorem setMaps_bind (new : KernelMaps) (f : Unit → Setup β) :
    (setMaps new >>= f) maps = f () new := rfl

@[simp] theorem setMap_bind (m : KernelMap) (f : Unit → Setup β) :
    (setMap m >>= f) maps = f () (maps.insert m.spec.name m) := rfl

end Setup

/-! ## Ending well and failing -/

namespace Part

/-- A piece has ended well, with `a`, and holds what it gained. -/
structure Succeeds {α : Type} (p : Part α) (first last : Phase) (a : α)
    (gained : List Resource) : Prop where
  result : p.result = .ok a
  work : Work first last gained p.effects

/-- A piece has failed in its phase `last`.  It did its work up to this phase, and then gave back
what it held, in the order of `given`. -/
structure Fails {α : Type} (p : Part α) (first last : Phase)
    (gained given : List Resource) : Prop where
  result : ∃ e, p.result = .error e ∧ e.phase = last
  course : ∃ work cleanup, p.effects = work ++ cleanup ∧ Work first last gained work ∧
    (phases work).getLast? = some last ∧ Cleanup given cleanup

variable {α : Type} {p : Part α} {q : Phase} {gained : List Resource}

/-- A piece that ends well within one phase. -/
theorem succeeds_of_phase {a : α} (hresult : p.result = .ok a)
    (hwork : Within q gained [] p.effects)
    (hidle : q.mayIdle = false → phases p.effects ≠ []) : p.Succeeds q q a gained :=
  ⟨hresult, hwork.work hidle⟩

/-- A piece that fails within one phase, after which it cleans up. -/
theorem fails_of_phase {e : SetupError} {given : List Resource} {work cleanup : List Effect}
    (hresult : p.result = .error e) (hq : e.phase = q) (heffects : p.effects = work ++ cleanup)
    (hwork : Within q gained [] work) (hne : phases work ≠ []) (hcleanup : Cleanup given cleanup) :
    p.Fails q q gained given := by
  exact ⟨⟨e, hresult, hq⟩, work, cleanup, heffects, hwork.work fun _ => hne,
    hwork.getLast?_phases hne, hcleanup⟩

/-- A piece that fails within one phase and has acquired nothing. -/
theorem fails_empty_handed {e : SetupError} (hresult : p.result = .error e) (hq : e.phase = q)
    (hwork : Within q [] [] p.effects) (hne : phases p.effects ≠ []) : p.Fails q q [] [] :=
  fails_of_phase hresult hq (List.append_nil _).symm hwork hne .nil

end Part

namespace Setup

variable {α β : Type} {x : Setup α} {f : α → Setup β} {maps : KernelMaps} {a b c d : Phase}
  {gained gained' given : List Resource} {v : α} {w : β}

/-- If the first piece ends well, the second one goes on with its result and with the maps that it
has left. -/
theorem bind_apply_of_ok (f : α → Setup β) (h : (x maps).result = .ok v) :
    (x >>= f) maps =
      { f v (x maps).maps with effects := (x maps).effects ++ (f v (x maps).maps).effects } := by
  simp only [Bind.bind, Setup.bind, h]

/-- If the first piece fails, so does the whole, and the second one does nothing. -/
theorem bind_apply_of_error {e : SetupError} (f : α → Setup β) (h : (x maps).result = .error e) :
    (x >>= f) maps = ⟨(x maps).effects, (x maps).maps, .error e⟩ := by
  simp only [Bind.bind, Setup.bind, h]

/-- Two pieces that succeed in phases that follow one another succeed as a whole, and gain what both
have gained. -/
theorem bind_succeeds (hx : (x maps).Succeeds a b v gained)
    (hf : (f v (x maps).maps).Succeeds c d w gained') (hbc : c.place = b.place + 1) :
    ((x >>= f) maps).Succeeds a d w (gained ++ gained') := by
  rw [bind_apply_of_ok f hx.result]
  exact ⟨hf.result, hx.work.append hf.work hbc⟩

/-- What follows a piece may do nothing but hand its result on. -/
theorem bind_pure_succeeds (hx : (x maps).Succeeds a b v gained) (hf : f v = Pure.pure w) :
    ((x >>= f) maps).Succeeds a b w gained := by
  rw [bind_apply_of_ok f hx.result, hf, pure_apply, List.append_nil]
  exact ⟨rfl, hx.work⟩

/-- If the first piece fails, the whole does, with the same effects. -/
theorem bind_fails_left (hx : (x maps).Fails a b gained given) :
    ((x >>= f) maps).Fails a b gained given := by
  obtain ⟨⟨e, hresult, hphase⟩, hcourse⟩ := hx
  rw [bind_apply_of_error f hresult]
  exact ⟨⟨e, rfl, hphase⟩, hcourse⟩

/-- A failure leaves the earlier pieces with what they hold. -/
theorem bind_fails (hx : (x maps).Succeeds a b v gained)
    (hf : (f v (x maps).maps).Fails c d gained' given) (hbc : c.place = b.place + 1) :
    ((x >>= f) maps).Fails a d (gained ++ gained') given := by
  obtain ⟨work, cleanup, heffects, hwork, hlast, hcleanup⟩ := hf.course
  rw [bind_apply_of_ok f hx.result]
  refine ⟨hf.result, (x maps).effects ++ work, cleanup, ?_, hx.work.append hwork hbc,
    Effect.getLast?_phases_append _ hlast, hcleanup⟩
  rw [heffects, List.append_assoc]

/-- `releasing` does nothing more than its piece if that succeeds. -/
theorem releasing_succeeds {es : List Effect} (hx : (x maps).Succeeds a b v gained) :
    (releasing es x maps).Succeeds a b v gained := by
  simpa only [releasing, hx.result] using hx

/-- What is held around a piece that fails is given back after what it held itself. -/
theorem releasing_fails {es : List Effect} {given' : List Resource}
    (hx : (x maps).Fails a b gained given) (hes : Cleanup given' es) :
    (releasing es x maps).Fails a b gained (given ++ given') := by
  obtain ⟨⟨e, hresult, hphase⟩, work, cleanup, heffects, hwork, hlast, hcleanup⟩ := hx
  simp only [releasing, hresult]
  refine ⟨⟨e, rfl, hphase⟩, work, cleanup ++ es, ?_, hwork, hlast, hcleanup.append hes⟩
  rw [heffects, List.append_assoc]

end Setup

end EgressControl.Engine
