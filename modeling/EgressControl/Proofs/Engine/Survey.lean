import EgressControl.Proofs.Engine.Releasing

/-!
# Which failure ends a run

`survey` asks of each phase that may fail whether it does, in the order of the phases, and answers
with the first failure; it neither has effects nor gives anything back.  `run_orderly` says that the
run ends with this answer: its effects come in the order of the phases, the last phase is the one
that fails, and a run that `survey` finds nothing against comes to its end.
-/

namespace EgressControl

/-- A mode is read from its name alone. -/
private theorem Mode.name_of_parse {s : String} {m : Mode} (h : parse s = .ok m) : s = m.name := by
  -- `parse` gives a mode only where `ofName?` does, at one of the two names.
  unfold parse ofName? at h
  split at h
  · simp at h
  · split at h
    · next hname =>
      obtain rfl := Except.ok.inj h
      split at hname
      · next hs => exact Option.some.inj hname ▸ hs
      · split at hname
        · next hs => exact Option.some.inj hname ▸ hs
        · simp at hname
    · simp at h

namespace Engine

open Effect (phases)

/-! ## Asking the phases -/

/-- What has been found, or the failure that was met first and its phase. -/
abbrev Verdict (α : Type) : Type := Except (Phase × SetupError) α

instance {α : Type} [DecidableEq α] : DecidableEq (Verdict α)
  | .ok a, .ok b => decidable_of_iff (a = b) ⟨congrArg _, Except.ok.inj⟩
  | .error a, .error b => decidable_of_iff (a = b) ⟨congrArg _, Except.error.inj⟩
  | .ok _, .error _ => isFalse nofun
  | .error _, .ok _ => isFalse nofun

/-- The answer of a phase. -/
def Phase.check {α : Type} (p : Phase) (x : Except SetupError α) : Verdict α := x.mapError (p, ·)

/-- Asks the phases that set a run up, from the privileges to the signals. -/
def surveySetUp (c : Config) (h : Host) (d : Disk) (mode : Mode) (seeds : List Ipv4) :
    Verdict Unit := do
  let k := h.kernel
  Phase.checkPrivilege.check (if k.superuser then .ok () else .error .privilege)
  Phase.liftMemoryLimit.check
    (if k.refusesCall .liftMemoryLimit then .error (.lockedMemory .notPermitted) else .ok ())
  let (collection, maps) ← Phase.load.check (Collection.load k h.parseObject d c.artifact).2
  let _ ← Phase.attach.check ((Attachment.attachAll (Program.binder k d) c.overrides
    collection.programs.entries).result.mapError .attach)
  let m ← Phase.setMode.check (collection.lend maps Mode.mapName)
  let m ← Phase.setMode.check ((mode.write m).mapError (.map Mode.mapName))
  let maps := maps.insert m.spec.name m
  let (m, collection) ← Phase.writeSeeds.check (collection.take maps AllowManager.mapName)
  let store ← Phase.writeSeeds.check ((AllowMap.ofMap m).mapError (.map AllowManager.mapName))
  let seeding := ({ store, suffixes := c.suffixes } : AllowManager AllowMap).seed seeds
  let m := seeding.manager.store.map
  let _ ← Phase.writeSeeds.check seeding.result
  let maps := maps.insert m.spec.name m
  let (m, collection) ← Phase.openOpened.check (collection.take maps openedName)
  let _ ← Phase.openOpened.check
    ((Perf.openFeed k openedName m c.bufferBytes).2.mapError (.stream openedName))
  let (m, _) ← Phase.openClosed.check (collection.take maps closedName)
  let _ ← Phase.openClosed.check
    ((Perf.openFeed k closedName m c.bufferBytes).2.mapError (.stream closedName))
  Phase.arm.check (if k.refusesCall .watchSignals then .error (.signal .invalid) else .ok ())

/-- Asks all phases of a run.  Collecting the first addresses cannot fail. -/
def survey (c : Config) (h : Host) (r : Resolver) : Verdict Unit := do
  let mode ← Phase.checkMode.check ((Mode.parse c.mode).mapError .config)
  let reporter ← Phase.createReport.check
    ((Reporter.new c.reportFile h.disk h.clock).mapError .reporter)
  surveySetUp c h reporter.disk mode (Seed.collect c.seed reporter.disk r).addresses.toList

/-! ## The answers bear the phases of their failures -/

/-- A failure is met in the phase that it names. -/
def Verdict.Attributed {α : Type} (v : Verdict α) : Prop :=
  ∀ p e, v = .error (p, e) → e.phase = p

namespace Verdict

variable {α β : Type}

/-- A check is `Attributed` if all of its errors belong to its own phase. -/
private theorem Attributed.check {p : Phase} {x : Except SetupError α}
    (h : ∀ e, x = .error e → e.phase = p) : Attributed (p.check x) := by
  intro q e he
  cases x with
  | ok a => simp [Phase.check] at he
  | error e' =>
    obtain ⟨rfl, rfl⟩ := Prod.mk.inj (Except.error.inj he)
    exact h _ rfl

/-- Checks one after the other are `Attributed` if each of them is. -/
private theorem Attributed.bind {v : Verdict α} {f : α → Verdict β} (hv : v.Attributed)
    (hf : ∀ a, (f a).Attributed) : Attributed (v >>= f) := by
  cases v with
  | ok a => exact hf a
  | error pe =>
    intro q e he
    exact hv q e (congrArg _ (Except.error.inj he))

/-- A check whose errors are all made by `f` is `Attributed` if `f` makes errors of its phase. -/
private theorem Attributed.check_mapError {ε : Type} {p : Phase} {x : Except ε α}
    {f : ε → SetupError}
    (h : ∀ e, (f e).phase = p) : Attributed (p.check (x.mapError f)) := by
  refine .check fun e he => ?_
  cases x with
  | ok a => simp at he
  | error e' => exact Except.error.inj he ▸ h e'

/-- The answer without the phase. -/
def failure (v : Verdict α) : Except SetupError α := v.mapError (·.2)

@[simp] theorem failure_check (p : Phase) (x : Except SetupError α) :
    failure (p.check x) = x := by
  cases x <;> rfl

@[simp] theorem failure_bind (v : Verdict α) (f : α → Verdict β) :
    failure (v >>= f) = v.failure >>= fun a => (f a).failure := by
  cases v <;> rfl

end Verdict

/-- Each failure of `surveySetUp` belongs to the phase that has been checked. -/
private theorem surveySetUp_attributed (c : Config) (h : Host) (d : Disk) (mode : Mode)
    (seeds : List Ipv4) : (surveySetUp c h d mode seeds).Attributed := by
  unfold surveySetUp
  -- One line for each step of `surveySetUp`, with the lemma that gives its error's phase.
  refine .bind (.check fun e he => ?_) fun _ => ?_
  · split at he
    · simp at he
    · exact Except.error.inj he ▸ rfl
  refine .bind (.check fun e he => SetupError.eq_of_refused he ▸ rfl) fun _ => ?_
  refine .bind (.check fun e he => Collection.phase_of_load_error he) fun _ => ?_
  refine .bind (.check_mapError fun _ => rfl) fun _ => ?_
  refine .bind (.check fun e he => Collection.lend_error he ▸ rfl) fun _ => ?_
  refine .bind (.check_mapError fun _ => rfl) fun _ => ?_
  refine .bind (.check fun e he => Collection.take_error he ▸ rfl) fun _ => ?_
  refine .bind (.check_mapError fun _ => rfl) fun _ => ?_
  refine .bind (.check fun e he => AllowManager.Seeding.phase_of_error he) fun _ => ?_
  refine .bind (.check fun e he => Collection.take_error he ▸ rfl) fun _ => ?_
  refine .bind (.check_mapError fun _ => rfl) fun _ => ?_
  refine .bind (.check fun e he => Collection.take_error he ▸ rfl) fun _ => ?_
  refine .bind (.check_mapError fun _ => rfl) fun _ => ?_
  exact .check fun e he => SetupError.eq_of_refused he ▸ rfl

/-- Each failure of `survey` belongs to the phase that has been checked. -/
private theorem survey_attributed (c : Config) (h : Host) (r : Resolver) :
    (survey c h r).Attributed := by
  unfold survey
  refine .bind (.check_mapError fun _ => rfl) fun _ => ?_
  refine .bind (.check_mapError fun _ => rfl) fun _ => ?_
  exact surveySetUp_attributed _ _ _ _ _

/-! ## Setting up has the answer of the survey -/

namespace Setup

variable {α β γ : Type}

/-- How a piece of setting up ends. -/
def verdict (x : Setup α) (maps : KernelMaps) : Except SetupError Unit :=
  (x maps).result.map fun _ => ()

variable (maps : KernelMaps) (f : α → Setup β)

@[simp] theorem verdict_pure (a : α) : (Pure.pure a : Setup α).verdict maps = Pure.pure () := rfl

@[simp] theorem verdict_emit_bind (es : List Effect) (f : Unit → Setup β) :
    (emit es >>= f).verdict maps = (f ()).verdict maps := rfl

@[simp] theorem verdict_lift_bind (x : Except SetupError α) :
    (lift x >>= f).verdict maps = x >>= fun a => (f a).verdict maps := by
  cases x <;> rfl

@[simp] theorem verdict_maps_bind (f : KernelMaps → Setup β) :
    (Setup.maps >>= f).verdict maps = (f maps).verdict maps := rfl

@[simp] theorem verdict_setMaps_bind (new : KernelMaps) (f : Unit → Setup β) :
    (setMaps new >>= f).verdict maps = (f ()).verdict new := rfl

@[simp] theorem verdict_setMap_bind (m : KernelMap) (f : Unit → Setup β) :
    (setMap m >>= f).verdict maps = (f ()).verdict (maps.insert m.spec.name m) := rfl

@[simp] theorem verdict_pure_bind (a : α) :
    ((Pure.pure a : Setup α) >>= f).verdict maps = (f a).verdict maps := rfl

/-- The verdict on two pieces is that on the second one after the first one has ended well. -/
private theorem verdict_bind (x : Setup α) :
    (x >>= f).verdict maps = (x maps).result >>= fun a => (f a).verdict (x maps).maps := by
  cases h : (x maps).result with
  | ok a =>
    rw [verdict, bind_apply_of_ok f h]
    rfl
  | error e =>
    rw [verdict, bind_apply_of_error f h]
    rfl

@[simp] theorem verdict_bind_assoc (x : Setup γ) (g : γ → Setup α) :
    (x >>= g >>= f).verdict maps = (x >>= fun a => g a >>= f).verdict maps := by
  rw [verdict_bind, verdict_bind maps (fun a => g a >>= f)]
  cases h : (x maps).result with
  | ok a =>
    rw [bind_apply_of_ok g h]
    exact (verdict_bind (x maps).maps f (g a)).symm
  | error e =>
    rw [bind_apply_of_error g h]
    rfl

/-- `releasing` has the result of its piece. -/
theorem releasing_result (es : List Effect) (x : Setup α) :
    (releasing es x maps).result = (x maps).result := by
  cases h : (x maps).result <;> simp only [releasing, h]

/-- `releasing` leaves the maps as its piece does. -/
theorem releasing_maps (es : List Effect) (x : Setup α) :
    (releasing es x maps).maps = (x maps).maps := by
  cases h : (x maps).result <;> simp only [releasing, h]

/-- What is given up after a failure does not change the failure. -/
@[simp] theorem verdict_releasing (es : List Effect) (x : Setup α) :
    (releasing es x).verdict maps = x.verdict maps := by
  rw [verdict, releasing_result, verdict]

@[simp] theorem verdict_releasing_bind (es : List Effect) (x : Setup α) :
    (releasing es x >>= f).verdict maps = (x >>= f).verdict maps := by
  rw [verdict_bind, releasing_result, releasing_maps, verdict_bind]

end Setup

/-- The verdict on `load` is that of `Collection.load`. -/
private theorem verdict_load_bind {β : Type} (h : Host) (d : Disk) (path : String)
    (maps : KernelMaps)
    (f : Collection → Setup β) :
    (load h d path >>= f).verdict maps =
      (Collection.load h.kernel h.parseObject d path).2 >>= fun x => (f x.1).verdict x.2 := by
  simp [load]

/-- The verdict on `openStream` is whether its map can be taken, and its feed opened. -/
private theorem verdict_openStream_bind {β : Type} (k : Kernel) (phase : Phase) (name : String)
    (bufferBytes : UInt64) (collection : Collection) (maps : KernelMaps)
    (f : Perf.Feed × Collection → Setup β) :
    (openStream k phase name bufferBytes collection >>= f).verdict maps =
      collection.take maps name >>= fun x =>
        (Perf.openFeed k name x.1 bufferBytes).2.mapError (.stream name) >>= fun feed =>
          (f (feed, x.2)).verdict maps := by
  simp [openStream]

/-- The verdict on `fillAllow` is whether the map can be taken, is of the right kind, and takes all
seeds. -/
private theorem verdict_fillAllow_bind {β : Type} (suffixes : List String) (seeds : List Ipv4)
    (collection : Collection) (maps : KernelMaps)
    (f : Collection × AllowManager AllowMap × Nat → Setup β) :
    (fillAllow suffixes seeds collection >>= f).verdict maps =
      collection.take maps AllowManager.mapName >>= fun x =>
        (AllowMap.ofMap x.1).mapError (.map AllowManager.mapName) >>= fun store =>
          let seeding := ({ store, suffixes } : AllowManager AllowMap).seed seeds
          let m := seeding.manager.store.map
          seeding.result >>= fun seeded =>
            (f (x.2, seeding.manager, seeded)).verdict (maps.insert m.spec.name m) := by
  simp [fillAllow]

/-- Setting up fails exactly as `surveySetUp` says, and succeeds otherwise. -/
private theorem verdict_setUp (c : Config) (h : Host) (d : Disk) (mode : Mode) (seeds : List Ipv4)
    (maps : KernelMaps) :
    (setUp c h d mode seeds).verdict maps = (surveySetUp c h d mode seeds).failure := by
  simp [setUp, context, equip, fill, streams, surveySetUp, checkPrivilege, liftMemoryLimit, attach,
    setMode, arm, verdict_load_bind, verdict_openStream_bind, verdict_fillAllow_bind]

/-- A run has the answer of the survey. -/
private theorem run_verdict (c : Config) (h : Host) (r : Resolver) (schedule : Schedule) :
    (runUnder c h r schedule).result.map (fun _ => ()) = (survey c h r).failure := by
  rcases run_cases c h r schedule with
    ⟨e, hmode, hrun⟩ | ⟨mode, hmode, ⟨e, hreporter, hrun⟩ | ⟨reporter, hreporter, hrun⟩⟩
  -- Up to the report, run and survey read the same two values.
  · rw [hrun, survey, hmode]
    rfl
  · rw [hrun, survey, hmode, hreporter]
    rfl
  let seeds := Seed.collect c.seed reporter.disk r
  -- From there on the survey is the verdict of `setUp`, by the bind lemmas.
  have hsurvey : (survey c h r).failure =
      (setUp c h reporter.disk mode seeds.addresses.toList).verdict .empty := by
    rw [verdict_setUp, survey, hmode, hreporter]
    rfl
  rw [hsurvey, Setup.verdict]
  rcases hrun with ⟨e, hresult, hrun⟩ | ⟨held, hresult, hrun⟩ <;> rw [hrun, hresult] <;> rfl

/-! ## Looking hosts up and touching the kernel -/

/-- Whether an effect is an operation of the kernel. -/
def Effect.touchesKernel : Effect → Bool
  | acquire .. | release _ | liftMemoryLimit | readObject _ | attach _ | setMode _ | takeAllow
  | writeSeed _ | openStream .. | arm | consume _ => true
  | log .. | checkMode _ | createReport _ | readNameservers _ | lookUp _ | checkPrivilege
  | print _ | writeSummary _ => false

/-- Hosts are looked up in one phase. -/
private theorem Effect.lookups_eq_nil {es : List Effect} (h : .collectSeeds ∉ phases es) :
    lookups es = [] := by
  refine List.filterMap_eq_nil_iff.mpr fun e he => ?_
  cases e with
  | lookUp host => exact absurd (List.mem_filterMap.mpr ⟨lookUp host, he, rfl⟩ : _ ∈ phases es) h
  | _ => rfl

/-- Nothing of the kernel is touched before a run is set up. -/
private theorem prologue_touches_nothing (c : Config) (seeds : Seed.Collection) :
    ∀ x ∈ prologue c seeds, x.touchesKernel = false := by
  intro x hx
  simp only [prologue, seedEffects, Effect.mainLines, List.mem_append, List.mem_singleton,
    List.mem_map] at hx
  rcases hx with (rfl | ⟨_, _, rfl⟩) | (⟨_, _, rfl⟩ | ⟨_, _, rfl⟩) | ⟨_, _, rfl⟩ <;> rfl

/-- Setting up begins with the phase `checkPrivilege`. -/
private theorem checkPrivilege_le_of_mem_setUp (c : Config) (h : Host) (d : Disk) (mode : Mode)
    (seeds : List Ipv4) (maps : KernelMaps) {q : Phase}
    (hq : q ∈ phases (setUp c h d mode seeds maps).effects) : .checkPrivilege ≤ q := by
  obtain ⟨_, _, ⟨_, _, _, hsetUp⟩ |
      ⟨_, _, _, ⟨_, work, cleanup, heffects, hwork, _, hcleanup⟩, _⟩⟩ :=
    setUp_spec c h d mode seeds maps
  · exact (hsetUp.work.spans.bounded q hq).1
  · rw [heffects, Effect.phases_append, hcleanup.phases, List.append_nil] at hq
    exact (hwork.spans.bounded q hq).1

/-- No host is looked up from the check of the privileges on. -/
private theorem Effect.lookups_eq_nil_of_le {es : List Effect}
    (h : ∀ q ∈ phases es, .checkPrivilege ≤ q) : lookups es = [] :=
  lookups_eq_nil fun hq => absurd (h _ hq) (by decide)

/-- What comes before the check of the privileges does not touch the kernel. -/
private theorem run_looks_up_first (c : Config) (h : Host) (r : Resolver) (schedule : Schedule) :
    ∃ front rest, (runUnder c h r schedule).effects = front ++ rest ∧
      (∀ x ∈ front, x.touchesKernel = false) ∧ Effect.lookups rest = [] := by
  rcases run_cases c h r schedule with ⟨e, -, hrun⟩ | ⟨mode, -, ⟨e, -, hrun⟩ | ⟨reporter, -, hrun⟩⟩
  -- No mode, or no report: the run is over before the kernel is touched.
  · rw [hrun]
    exact ⟨[.checkMode c.mode], [], rfl, by simp [Effect.touchesKernel], rfl⟩
  · rw [hrun]
    refine ⟨_, [], (List.append_nil _).symm, fun x hx => ?_, rfl⟩
    exact prologue_touches_nothing c (Seed.collect c.seed h.disk r) x (List.mem_append_left _ hx)
  let seeds := Seed.collect c.seed reporter.disk r
  -- With a report, the lookups are all in the prologue, and what follows touches phases
  -- from `.checkPrivilege` on, none of which looks anything up.
  let part := setUp c h reporter.disk mode seeds.addresses.toList .empty
  have hpart : ∀ q ∈ phases part.effects, .checkPrivilege ≤ q := fun _ hq =>
    checkPrivilege_le_of_mem_setUp _ _ _ _ _ _ hq
  rcases hrun with ⟨e, -, hrun⟩ | ⟨held, -, hrun⟩
  · rw [hrun]
    exact ⟨_, _, rfl, prologue_touches_nothing c seeds, Effect.lookups_eq_nil_of_le hpart⟩
  · obtain ⟨consuming, _, finishing, store, heffects, hconsuming, -, hfinishing, -⟩ :=
      operate_effects c r schedule mode reporter held part.maps (prologue c seeds ++ part.effects)
    rw [hrun, heffects]
    refine ⟨prologue c seeds,
      part.effects ++ (consuming ++ (finishing ++ release held.context store)),
      by simp only [List.append_assoc], prologue_touches_nothing c seeds,
      Effect.lookups_eq_nil_of_le fun q hq => ?_⟩
    simp only [Effect.phases_append, (cleanup_release _ _).phases, List.append_nil,
      List.mem_append] at hq
    rcases hq with hq | hq | hq
    · exact hpart q hq
    · exact hconsuming.phases q hq ▸ by decide
    · exact hfinishing.phases q hq ▸ by decide

/-- Without the rights of the superuser, setting up ends at once. -/
private theorem setUp_of_not_superuser {h : Host} (hroot : h.kernel.superuser = false) (c : Config)
    (d : Disk) (mode : Mode) (seeds : List Ipv4) (maps : KernelMaps) :
    setUp c h d mode seeds maps = ⟨[.checkPrivilege], maps, .error .privilege⟩ := by
  have hcheck : checkPrivilege h.kernel maps = ⟨[.checkPrivilege], maps, .error .privilege⟩ := by
    simp [checkPrivilege, hroot]
  have hcontext : context c h d mode seeds maps =
      ⟨[.checkPrivilege], maps, .error .privilege⟩ := by
    rw [context, Setup.bind_apply_of_error _ (congrArg Part.result hcheck), hcheck]
  rw [setUp, Setup.bind_apply_of_error _ (congrArg Part.result hcontext), hcontext]

/-- A run without the rights of the superuser touches nothing of the kernel. -/
private theorem run_of_not_superuser {h : Host} (hroot : h.kernel.superuser = false) (c : Config)
    (r : Resolver) (schedule : Schedule) :
    ∀ x ∈ (runUnder c h r schedule).effects, x.touchesKernel = false := by
  intro x hx
  rcases run_cases c h r schedule with ⟨e, -, hrun⟩ | ⟨mode, -, ⟨e, -, hrun⟩ | ⟨reporter, -, hrun⟩⟩
  -- Without a mode or a report the kernel has not been reached yet.
  · rw [hrun] at hx
    exact List.mem_singleton.mp hx ▸ rfl
  · rw [hrun] at hx
    exact prologue_touches_nothing c (Seed.collect c.seed h.disk r) x (List.mem_append_left _ hx)
  -- `setUp` ends at its first check, so all it does is that check.
  have hsetUp := setUp_of_not_superuser hroot c reporter.disk mode
    (Seed.collect c.seed reporter.disk r).addresses.toList .empty
  rcases hrun with ⟨e, -, hrun⟩ | ⟨held, hresult, -⟩
  · rw [hrun] at hx
    rcases List.mem_append.mp hx with hx | hx
    · exact prologue_touches_nothing c _ x hx
    · rw [congrArg Part.effects hsetUp] at hx
      exact List.mem_singleton.mp hx ▸ rfl
  · exact nomatch (congrArg Part.result hsetUp).symm.trans hresult

/-- What is no name of a mode ends the run before anything has been done. -/
private theorem run_of_unknown_mode {c : Config} (hunknown : ∀ m : Mode, c.mode ≠ m.name) (h : Host)
    (r : Resolver) (schedule : Schedule) :
    (runUnder c h r schedule).disk = h.disk ∧
      (runUnder c h r schedule).effects = [.checkMode c.mode] := by
  rcases run_cases c h r schedule with ⟨e, -, hrun⟩ | ⟨mode, hmode, -⟩
  · rw [hrun]
    exact ⟨rfl, rfl⟩
  · exact absurd (Mode.name_of_parse hmode) (hunknown mode)

/-- A run whose report cannot be created looks up no name. -/
private theorem run_of_reporter_error {c : Config} {h : Host} {e : IoError}
    (he : Reporter.new c.reportFile h.disk h.clock = .error e) (r : Resolver)
    (schedule : Schedule) :
    Effect.lookups (runUnder c h r schedule).effects = [] := by
  rcases run_cases c h r schedule with
    ⟨e, -, hrun⟩ | ⟨mode, -, ⟨e, -, hrun⟩ | ⟨reporter, hreporter, -⟩⟩
  · rw [hrun]
    rfl
  · rw [hrun]
    exact Effect.lookups_eq_nil fun hq =>
      absurd ((createReport_work c).spans.bounded _ hq).2 (by decide)
  · exact nomatch he.symm.trans hreporter

/-! ## The order of a run -/

/-- The order of a run and what decides about its end. -/
structure Orderly (c : Config) (h : Host) (r : Resolver) (o : Outcome) : Prop where
  /-- The effects come in the order of the phases. -/
  ordered : (phases o.effects).Pairwise (· ≤ ·)
  /-- A phase before the last one is only left out if there may be nothing to do in it. -/
  complete : ∀ p, p.mayIdle = false → p ≤ o.lastPhase → p ∈ phases o.effects
  /-- The first phase that fails is the last one that has effects, and its failure ends the run. -/
  fails : ∀ p e, survey c h r = .error (p, e) →
    o.result = .error e ∧ (phases o.effects).getLast? = some p ∧ ∀ q ∈ phases o.effects, q ≤ p
  /-- A run in which no phase fails comes to its end. -/
  succeeds : survey c h r = .ok () →
    (∃ s, o.result = .ok s) ∧ (phases o.effects).getLast? = some .finish
  /-- A text that names no mode ends the run before anything has been done. -/
  unknown_mode : (∀ m : Mode, c.mode ≠ m.name) →
    o.disk = h.disk ∧ o.effects = [.checkMode c.mode]
  /-- No host is looked up if the log of connections cannot be created. -/
  no_report : ∀ e, Reporter.new c.reportFile h.disk h.clock = .error e →
    Effect.lookups o.effects = []
  /-- Every host is looked up before the first operation of the kernel. -/
  lookups_first : ∃ front rest, o.effects = front ++ rest ∧
    (∀ x ∈ front, x.touchesKernel = false) ∧ Effect.lookups rest = []
  /-- The superuser alone has operations of the kernel done. -/
  needs_superuser : h.kernel.superuser = false → ∀ x ∈ o.effects, x.touchesKernel = false

/-- Every run goes through its phases in order and ends as `survey` says, with the failure of the
first phase that fails (`Orderly`), under any `schedule`. -/
theorem run_orderly (c : Config) (h : Host) (r : Resolver) (schedule : Schedule) :
    Orderly c h r (runUnder c h r schedule) := by
  obtain ⟨links, work, cleanup, heffects, hcourse⟩ := run_course c h r schedule
  have hphases : phases (runUnder c h r schedule).effects = phases work := by
    rw [heffects, Effect.phases_append, hcourse.idle, List.append_nil]
  -- The course gives the order of the phases, the survey the failure: they meet in
  -- `lastPhase`.
  have hverdict := run_verdict c h r schedule
  constructor
  case ordered => rw [hphases]; exact hcourse.spans.ordered
  case complete =>
    intro p hidle hp
    rw [hphases]
    exact hcourse.spans.complete p hidle (Nat.zero_le _) hp
  case fails =>
    intro p e he
    have hresult : (runUnder c h r schedule).result = .error e := by
      rw [he] at hverdict
      cases hresult : (runUnder c h r schedule).result with
      | ok s => exact nomatch hresult ▸ hverdict
      | error e' =>
        rw [hresult] at hverdict
        exact congrArg _ (Except.error.inj hverdict)
    -- The phase that `survey` blames is the one in which the course ended.
    have hlast : (runUnder c h r schedule).lastPhase = p := by
      rw [Outcome.lastPhase, hresult]
      exact survey_attributed c h r p e he
    rw [hlast] at hcourse
    rw [hphases]
    exact ⟨hresult, hcourse.ends, fun q hq => (hcourse.spans.bounded q hq).2⟩
  case succeeds =>
    intro hok
    rw [hok] at hverdict
    cases hresult : (runUnder c h r schedule).result with
    | error e => exact nomatch hresult ▸ hverdict
    | ok s =>
      rw [Outcome.lastPhase, hresult] at hcourse
      rw [hphases]
      exact ⟨⟨s, rfl⟩, hcourse.ends⟩
  case unknown_mode => exact fun hunknown => run_of_unknown_mode hunknown h r schedule
  case no_report => exact fun _ he => run_of_reporter_error he r schedule
  case lookups_first => exact run_looks_up_first c h r schedule
  case needs_superuser => exact fun hroot => run_of_not_superuser hroot c r schedule

/-- A host on which the user is not the superuser. -/
def plainUserHost : Host := { probeHost [] with kernel := { superuser := false } }

/-- A run that wants a log of connections in a directory that does not exist, and has a host to look
up. -/
def lostReportConfig : Config :=
  { probeConfig "trace" with reportFile := some "missing/log", seed := { hosts := "example.com" } }

/-- The first address cannot be written; nothing goes wrong; the mode is unknown; the log of
connections cannot be created; the user is not the superuser. -/
theorem run_orderly_probe :
    let ends (c : Config) (h : Host) := run c h .empty "SIGTERM"
    let refused := ends (probeConfig "trace") (probeHost [.updateMap AllowManager.mapName])
    (refused.result = .error (.map AllowManager.mapName (KernelMap.updateError .notPermitted)) ∧
      (phases refused.effects).getLast? = some .writeSeeds) ∧
    (∃ s, (ends (probeConfig "monitor") (probeHost [])).result = .ok s) ∧
    (ends (probeConfig "enforce") (probeHost [])).effects = [.checkMode "enforce"] ∧
    Effect.lookups (ends lostReportConfig (probeHost [])).effects = [] ∧
    ∀ x ∈ (ends (probeConfig "trace") plainUserHost).effects, x.touchesKernel = false := by
  have horderly (c : Config) (h : Host) : Orderly c h .empty (run c h .empty "SIGTERM") :=
    run_orderly c h .empty (.quiet h.kernel "SIGTERM")
  -- Each clause of `Orderly` is used once: `fails`, `succeeds`, `unknown_mode`, `no_report`
  -- and `needs_superuser`.
  have hrefused := (horderly (probeConfig "trace")
    (probeHost [.updateMap AllowManager.mapName])).fails .writeSeeds
      (.map AllowManager.mapName (KernelMap.updateError .notPermitted)) (by decide +kernel)
  have hmonitor := (horderly (probeConfig "monitor") (probeHost [])).succeeds (by decide +kernel)
  have hunknown := (horderly (probeConfig "enforce") (probeHost [])).unknown_mode
    (by intro m; cases m <;> decide)
  have hlost := (horderly lostReportConfig (probeHost [])).no_report
  have hnew : (Reporter.new lostReportConfig.reportFile (probeHost []).disk
    (probeHost []).clock).isOk = false := by decide +kernel
  have hplain := (horderly (probeConfig "trace") plainUserHost).needs_superuser rfl
  refine ⟨⟨hrefused.1, hrefused.2.1⟩, hmonitor.1, hunknown.2, ?_, hplain⟩
  cases hreporter : Reporter.new lostReportConfig.reportFile (probeHost []).disk
    (probeHost []).clock with
  | error e => exact hlost e hreporter
  | ok reporter => exact nomatch hreporter ▸ hnew

end Engine

end EgressControl
