import EgressControl.Engine.Run
import EgressControl.Proofs.Engine.Session
import EgressControl.Proofs.Engine.SetUp

/-!
# The course of a run

`run_course` is about every run: its effects are the work up to its last phase and the cleaning up
after it.  The phases of the work come in their order, `Teardown` says what is acquired and in which
order it is given up, and no attachment is given up while there is work.
-/

namespace EgressControl.Engine

open Effect (Spans Within Work Cleanup phases acquired released)

/-- The phase in which a run ends: that of its failure, or the last one. -/
def Outcome.lastPhase (o : Outcome) : Phase :=
  match o.result with
  | .ok _ => .finish
  | .error e => e.phase

@[simp] theorem lastPhase_failed (e : SetupError) (effects : List Effect) (d : Disk)
    (maps : KernelMaps) : (failed e effects d maps).lastPhase = e.phase := rfl

/-- The work of a run up to the phase `last`, and the cleaning up after it. -/
structure Course (path : String) (links : List Attachment) (last : Phase)
    (work cleanup : List Effect) : Prop where
  nodup : links.Nodup
  spans : Spans .checkMode last work
  ends : (phases work).getLast? = some last
  idle : phases cleanup = []
  attached : ∀ a, .link a ∉ released work
  teardown : Teardown path links last (acquired work) (released (work ++ cleanup))

/-! ## Before anything is held -/

/-- A run begins with the phase `checkMode`, in which nothing is acquired. -/
private theorem checkMode_work (text : String) : Work .checkMode .checkMode [] [.checkMode text] :=
  Within.work (.single rfl rfl rfl) (by simp)

/-- Until the phase `createReport` nothing is acquired; without a report file this phase is idle. -/
theorem createReport_work (c : Config) :
    Work .checkMode .createReport []
      ([.checkMode c.mode] ++ c.reportFile.toList.map .createReport) := by
  have hreport : Within .createReport [] [] (c.reportFile.toList.map .createReport) :=
    .map (fun _ => rfl) (fun _ => rfl) (fun _ => rfl) _
  exact (checkMode_work c.mode).append (hreport.work (by simp [Phase.mayIdle])) rfl

/-- The phase `collectSeeds` acquires nothing, and may be idle. -/
private theorem seedEffects_work (sources : SeedSources) (seeds : Seed.Collection) :
    Work .collectSeeds .collectSeeds [] (seedEffects sources seeds) := by
  have hnameservers :
      Within .collectSeeds [] [] (sources.nameservers.toList.map .readNameservers) :=
    .map (fun _ => rfl) (fun _ => rfl) (fun _ => rfl) _
  have hlookups : Within .collectSeeds [] [] (seeds.queries.map .lookUp) :=
    .map (fun _ => rfl) (fun _ => rfl) (fun _ => rfl) _
  exact ((hnameservers.append hlookups).append (.mainLines seeds.logs)).work
    (by simp [Phase.mayIdle])

/-! ## After everything has been acquired -/

/-- The tasks of a run end with both streams given up, in whatever order, and nothing else. -/
theorem finish_effects (held : Held) (r : Resolver) (schedule : Schedule) (reporter : Reporter) :
    ∃ streams, Within .consume [] streams (held.finish r schedule reporter).2 ∧
      streams.Perm [.stream openedName, .stream closedName] := by
  let session := held.session schedule reporter
  have hstart : session.Sane :=
    .of_start _ ((FanIn.kept_start _ _).reader.mpr (by simp))
      ((FanIn.kept_start _ _).reader.mpr (by simp))
  obtain ⟨streams, hwithin, hperm⟩ :=
    session.run_effects r (schedule.steps session ++ Session.ending schedule.signal)
  -- Whatever the schedule was, nothing is held any more in the end.
  obtain ⟨htold, hdraining⟩ :=
    Session.ended_run_ending r (hstart.run r (schedule.steps session)) schedule.signal
  have hleft : (session.run r (schedule.steps session ++
      Session.ending schedule.signal)).1.held = [] := by
    rw [Session.run_append]
    simp [Session.held, htold, hdraining]
  rw [hleft, List.append_nil] at hperm
  exact ⟨streams, hwithin, hperm⟩

/-- To write a summary belongs to the phase `finish`, and acquires and gives up nothing. -/
private theorem writeSummary_within (path : Option String) (r : Reporter) :
    Within .finish [] [] (writeSummary path r).2 := by
  cases path with
  | none => exact .nil
  | some path => exact ⟨by simp [writeSummary], rfl, rfl⟩

/-- `release` gives up the attachments, then the map of allowed addresses, and the collection
last. -/
theorem cleanup_release (x : Context) (store : AllowMap) :
    Cleanup (x.attachments.map .link ++
      [.map AllowManager.mapName, .collection x.collection.path]) (release x store) := by
  have hline : Cleanup [] [.log .main (detachingLine x.attachments)] := ⟨rfl, rfl⟩
  exact (hline.append (.attachments x.attachments)).append ⟨rfl, rfl⟩

/-- The effects of a run after it has been set up. -/
theorem operate_effects (c : Config) (r : Resolver) (schedule : Schedule) (mode : Mode)
    (reporter : Reporter) (held : Held) (maps : KernelMaps) (before : List Effect) :
    ∃ consuming streams finishing store,
      (operate c r schedule mode reporter held maps before).effects =
        before ++ consuming ++ finishing ++ release held.context store ∧
      Within .consume [] streams consuming ∧
      streams.Perm [.stream openedName, .stream closedName] ∧
      Within .finish [] [] finishing ∧ phases finishing ≠ [] := by
  obtain ⟨streams, hsession, hperm⟩ := finish_effects held r schedule reporter
  -- The part under `.consume` is the session, the part under `.finish` what is told of it.
  let k := (held.finish r schedule reporter).1.consumer
  let cleaned := k.reporter.clean
  let summary := writeSummary c.summaryFile cleaned.1
  let consuming := .log .main (runningLine mode) :: (held.finish r schedule reporter).2
  let finishing := .print summary.1.report.printed :: (Effect.mainLines cleaned.2 ++ summary.2)
  have hconsuming : Within .consume [] streams consuming := (Within.log .main [_]).append hsession
  have hfinishing : Within .finish [] [] finishing :=
    (Within.single rfl rfl rfl).append ((Within.mainLines _).append (writeSummary_within _ _))
  refine ⟨consuming, streams, finishing, k.allow.store, ?_, hconsuming, hperm, hfinishing, by
    simp [finishing]⟩
  simp [operate, consuming, finishing, k, cleaned, summary]

/-! ## The whole run -/

/-- The effects of a run before it is set up. -/
def prologue (c : Config) (seeds : Seed.Collection) : List Effect :=
  [.checkMode c.mode] ++ c.reportFile.toList.map .createReport ++ seedEffects c.seed seeds

/-- The phases before a run is set up are those from `checkMode` to `collectSeeds`, and nothing is
acquired in them. -/
theorem prologue_work (c : Config) (seeds : Seed.Collection) :
    Work .checkMode .collectSeeds [] (prologue c seeds) :=
  (createReport_work c).append (seedEffects_work c.seed seeds) rfl

/-- A run fails because of its mode, its report or while it is set up, or it operates. -/
theorem run_cases (c : Config) (h : Host) (r : Resolver) (schedule : Schedule) :
    (∃ e, Mode.parse c.mode = .error e ∧
      runUnder c h r schedule = failed (.config e) [.checkMode c.mode] h.disk .empty) ∨
    ∃ mode, Mode.parse c.mode = .ok mode ∧
      ((∃ e, Reporter.new c.reportFile h.disk h.clock = .error e ∧
        runUnder c h r schedule = failed (.reporter e)
          ([.checkMode c.mode] ++ c.reportFile.toList.map .createReport) h.disk .empty) ∨
      ∃ reporter, Reporter.new c.reportFile h.disk h.clock = .ok reporter ∧
        let seeds := Seed.collect c.seed reporter.disk r
        let part := setUp c h reporter.disk mode seeds.addresses.toList .empty
        let before := prologue c seeds ++ part.effects
        ((∃ e, part.result = .error e ∧
          runUnder c h r schedule = failed e before reporter.disk part.maps) ∨
        ∃ held, part.result = .ok held ∧
          runUnder c h r schedule = operate c r schedule mode reporter held part.maps before)) := by
  -- The three values on which `runUnder` branches, in the order in which it does.
  cases hmode : Mode.parse c.mode with
  | error e =>
    refine .inl ⟨e, rfl, ?_⟩
    simp only [runUnder, hmode]
  | ok mode =>
  cases hreporter : Reporter.new c.reportFile h.disk h.clock with
  | error e =>
    refine .inr ⟨mode, rfl, .inl ⟨e, rfl, ?_⟩⟩
    simp only [runUnder, hmode, hreporter]
  | ok reporter =>
  refine .inr ⟨mode, rfl, .inr ⟨reporter, rfl, ?_⟩⟩
  intro seeds part before
  cases hresult : part.result with
  | error e =>
    refine .inl ⟨e, rfl, ?_⟩
    simp only [part, seeds] at hresult
    simp only [runUnder, hmode, hreporter, hresult, before, part, seeds, prologue]
  | ok held =>
    refine .inr ⟨held, rfl, ?_⟩
    simp only [part, seeds] at hresult
    simp only [runUnder, hmode, hreporter, hresult, before, part, seeds, prologue]

/-- A report is tried to be created if that fails. -/
private theorem reportFile_of_reporter_error {path : Option String} {d : Disk}
    {clock : Nat → String}
    {e : IoError} (h : Reporter.new path d clock = .error e) : ∃ file, path = some file := by
  cases path with
  | none => simp [Reporter.new] at h
  | some file => exact ⟨file, rfl⟩

/-- A run that has acquired nothing has nothing to give up. -/
private theorem Course.of_work {path : String} {last : Phase} {work : List Effect}
    (hwork : Work .checkMode last [] work) (hends : (phases work).getLast? = some last)
    (hlast : last ≤ .load) : Course path [] last work [] where
  nodup := .nil
  spans := hwork.spans
  ends := hends
  idle := rfl
  attached := by simp [hwork.released]
  teardown := by simpa [hwork.acquired, hwork.released] using Teardown.unloaded hlast

/-- A run that was set up comes to its last phase. -/
private theorem operate_course (c : Config) (r : Resolver) (schedule : Schedule) (mode : Mode)
    (reporter : Reporter) {held : Held} (maps : KernelMaps) {before : List Effect}
    {links : List Attachment} (hnodup : links.Nodup) (hlinks : held.context.attachments = links)
    (hpath : held.context.collection.path = c.artifact)
    (hbefore : Work .checkMode .arm (.collection c.artifact :: links.map .link ++
      [.map AllowManager.mapName, .stream openedName, .stream closedName]) before) :
    ∃ work cleanup, (operate c r schedule mode reporter held maps before).effects =
      work ++ cleanup ∧ Course c.artifact links .finish work cleanup := by
  obtain ⟨consuming, streams, finishing, store, heffects, hconsuming, hperm, hfinishing, hne⟩ :=
    operate_effects c r schedule mode reporter held maps before
  have hcleanup := cleanup_release held.context store
  rw [hlinks, hpath] at hcleanup
  have hspans : Spans .checkMode .finish (before ++ consuming ++ finishing) :=
    (hbefore.spans.append (.of_phase hconsuming.phases (by simp [Phase.mayIdle])) rfl).append
      (.of_phase hfinishing.phases fun _ => hne) rfl
  have hacquired : acquired (before ++ consuming ++ finishing) =
      .collection c.artifact :: links.map .link ++
        [.map AllowManager.mapName, .stream openedName, .stream closedName] := by
    rw [Effect.acquired_append, Effect.acquired_append, hbefore.acquired, hconsuming.acquired,
      hfinishing.acquired, List.append_nil, List.append_nil]
  have hreleased : released (before ++ consuming ++ finishing) = streams := by
    rw [Effect.released_append, Effect.released_append, hbefore.released, hconsuming.released,
      hfinishing.released, List.nil_append, List.append_nil]
  refine ⟨_, _, heffects, hnodup, hspans,
    Effect.getLast?_phases_append _ (hfinishing.getLast?_phases hne), hcleanup.phases, ?_, ?_⟩
  · -- What is given up before is a stream.
    intro a ha
    rw [hreleased] at ha
    simpa using hperm.mem_iff.mp ha
  · rw [hacquired, Effect.released_append, hreleased, hcleanup.released, ← List.append_assoc]
    exact .finished hperm

/-- Every run goes through its phases up to the last one, and then it cleans up. -/
theorem run_course (c : Config) (h : Host) (r : Resolver) (schedule : Schedule) :
    ∃ links work cleanup, (runUnder c h r schedule).effects = work ++ cleanup ∧
      Course c.artifact links (runUnder c h r schedule).lastPhase work cleanup := by
  rcases run_cases c h r schedule with
    ⟨e, -, hrun⟩ | ⟨mode, -, ⟨e, hreporter, hrun⟩ | ⟨reporter, -, hrun⟩⟩
  · rw [hrun, lastPhase_failed]
    exact ⟨[], _, [], (List.append_nil _).symm,
      .of_work (checkMode_work c.mode) rfl (by decide : Phase.checkMode ≤ .load)⟩
  · obtain ⟨file, hfile⟩ := reportFile_of_reporter_error hreporter
    rw [hrun, lastPhase_failed]
    exact ⟨[], _, [], (List.append_nil _).symm,
      .of_work (createReport_work c) (by rw [hfile]; rfl) (by decide : Phase.createReport ≤ .load)⟩
  have hprologue := prologue_work c (Seed.collect c.seed reporter.disk r)
  obtain ⟨links, hnodup, ⟨held, hlinks, hpath, hsetUp⟩ |
      ⟨last, gained, given, ⟨⟨e, hresult, hlast⟩, work, cleanup, heffects, hwork, hends, hcleanup⟩,
        hteardown⟩⟩ :=
    setUp_spec c h reporter.disk mode (Seed.collect c.seed reporter.disk r).addresses.toList .empty
  -- `setUp_spec` and `run_cases` tell of one and the same result.
  case inl =>
    rcases hrun with ⟨e, hresult, -⟩ | ⟨held', hresult, hrun⟩
    · exact nomatch hresult.symm.trans hsetUp.result
    obtain rfl : held = held' := Except.ok.inj (hsetUp.result.symm.trans hresult)
    rw [hrun]
    obtain ⟨work, cleanup, heffects, hcourse⟩ := operate_course c r schedule mode reporter _ hnodup
      hlinks hpath (hprologue.append hsetUp.work rfl)
    exact ⟨links, work, cleanup, heffects, hcourse⟩
  case inr =>
    rcases hrun with ⟨e', hresult', hrun⟩ | ⟨held, hresult', -⟩
    case inr => exact nomatch hresult.symm.trans hresult'
    obtain rfl : e = e' := Except.error.inj (hresult.symm.trans hresult')
    subst hlast
    have hall := hprologue.append hwork rfl
    rw [hrun, lastPhase_failed]
    refine ⟨links, _ ++ work, cleanup, ?_, hnodup, hall.spans,
      Effect.getLast?_phases_append _ hends, hcleanup.phases, ?_, ?_⟩
    · rw [List.append_assoc, ← heffects]
      rfl
    · simp [hall.released]
    · rwa [hall.acquired, Effect.released_append, hall.released, hcleanup.released]

end EgressControl.Engine
