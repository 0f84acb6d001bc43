import EgressControl.Engine.Setup

/-!
# What a list of effects tells

Three things are read off the effects of a run: the phases to which they belong (`phases`), what is
acquired (`acquired`) and what is given up (`released`), each in the order in which it happens.

- `Within q gained given es`: `es` belongs to the phase `q`, acquires `gained` and gives up `given`;
- `Spans first last es`: the phases of `es` come in their order, none before `first` and none after
  `last`, and none of those is missing that always leave an effect behind;
- `Work first last gained es`: the same, and `es` acquires `gained` and gives nothing up;
- `Cleanup given es`: `es` gives up `given`, and belongs to no phase.

`Within.append` stays in one phase; `Spans.append` and `Work.append` go on to the next one.
-/

namespace EgressControl

namespace Engine

/-! ## The order of the phases -/

namespace Phase

/-- The place of a phase in the order of a run. -/
def place (p : Phase) : Nat := p.ctorIdx

/-- Phases with the same `place` are the same. -/
private theorem place_inj {p q : Phase} : p.place = q.place ↔ p = q := by
  constructor
  · intro h
    simp only [place] at h
    rw [← ofNat_ctorIdx p, h, ofNat_ctorIdx]
  · rintro rfl
    rfl

/-- One phase comes before another, or they are the same. -/
instance : LE Phase := ⟨fun p q => p.place ≤ q.place⟩

/-- Phases are in the order of their places. -/
private theorem le_iff {p q : Phase} : p ≤ q ↔ p.place ≤ q.place := .rfl

instance (p q : Phase) : Decidable (p ≤ q) := inferInstanceAs (Decidable (p.place ≤ q.place))

/-- Whether there may be nothing to do in a phase: no report is wanted, no host is named, the
object file has no program, or no connection is made. -/
def mayIdle : Phase → Bool
  | createReport | collectSeeds | attach | consume => true
  | checkMode | checkPrivilege | liftMemoryLimit | load | setMode | writeSeeds | openOpened
  | openClosed | arm | finish => false

/-- The phase that deals with a map of the collection. -/
def ofMap (name : String) : Phase :=
  if name = Mode.mapName then setMode
  else if name = AllowManager.mapName then writeSeeds
  else if name = openedName then openOpened
  else openClosed

end Phase

end Engine

/-- The phase of a run that ends with a failure. -/
def SetupError.phase : SetupError → Engine.Phase
  | config _ => .checkMode
  | reporter _ => .createReport
  | privilege => .checkPrivilege
  | lockedMemory _ => .liftMemoryLimit
  | unreadable .. | load .. | resource .. => .load
  | attach _ => .attach
  | missingMap name | map name _ | stream name _ => .ofMap name
  | signal _ => .arm

namespace Engine

namespace Effect

/-! ## Phases and resources of effects -/

/-- What an effect acquires. -/
def acquires? : Effect → Option Resource
  | acquire _ r => some r
  | _ => none

/-- What an effect gives up. -/
def releases? : Effect → Option Resource
  | release r => some r
  | _ => none

attribute [simp] phase? acquires? releases?

/-- The phases of effects, one for each effect that belongs to any. -/
def phases (es : List Effect) : List Phase := es.filterMap phase?

/-- What effects acquire. -/
def acquired (es : List Effect) : List Resource := es.filterMap acquires?

/-- What effects give up. -/
def released (es : List Effect) : List Resource := es.filterMap releases?

/-- What the first effect tells comes first. -/
private theorem filterMap_cons_toList {α : Type} (f : Effect → Option α) (e : Effect)
    (es : List Effect) :
    (e :: es).filterMap f = (f e).toList ++ es.filterMap f := by
  cases h : f e with
  | none => exact List.filterMap_cons_none h
  | some _ => exact List.filterMap_cons_some h

@[simp] theorem phases_nil : phases [] = [] := rfl

@[simp] theorem phases_cons (e : Effect) (es : List Effect) :
    phases (e :: es) = e.phase?.toList ++ phases es := filterMap_cons_toList _ e es

@[simp] theorem phases_append (es fs : List Effect) :
    phases (es ++ fs) = phases es ++ phases fs := List.filterMap_append

@[simp] theorem acquired_nil : acquired [] = [] := rfl

@[simp] theorem acquired_cons (e : Effect) (es : List Effect) :
    acquired (e :: es) = e.acquires?.toList ++ acquired es := filterMap_cons_toList _ e es

@[simp] theorem acquired_append (es fs : List Effect) :
    acquired (es ++ fs) = acquired es ++ acquired fs := List.filterMap_append

@[simp] theorem released_nil : released [] = [] := rfl

@[simp] theorem released_cons (e : Effect) (es : List Effect) :
    released (e :: es) = e.releases?.toList ++ released es := filterMap_cons_toList _ e es

@[simp] theorem released_append (es fs : List Effect) :
    released (es ++ fs) = released es ++ released fs := List.filterMap_append

section

variable (w : Worker) (lines : List Log.Line)

@[simp] theorem phases_log : phases (lines.map (log w)) = [] := by
  induction lines <;> simp_all

@[simp] theorem released_log : released (lines.map (log w)) = [] := by
  induction lines <;> simp_all

end

@[simp] theorem phases_mainLines (lines : List Log.Line) : phases (mainLines lines) = [] :=
  phases_log .main lines

@[simp] theorem released_mainLines (lines : List Log.Line) : released (mainLines lines) = [] :=
  released_log .main lines

/-- What is acquired is acquired in a phase. -/
theorem acquired_eq_nil_of_phases {es : List Effect} (h : phases es = []) : acquired es = [] := by
  refine List.filterMap_eq_nil_iff.mpr fun e he => ?_
  have hnone := List.filterMap_eq_nil_iff.mp h e he
  cases e <;> simp_all

@[simp] theorem acquired_mainLines (lines : List Log.Line) : acquired (mainLines lines) = [] :=
  acquired_eq_nil_of_phases (phases_mainLines lines)

/-- The last phase of effects is that of the later ones, if these belong to any. -/
theorem getLast?_phases_append (es : List Effect) {fs : List Effect} {p : Phase}
    (h : (phases fs).getLast? = some p) : (phases (es ++ fs)).getLast? = some p := by
  rw [phases_append, List.getLast?_append, h, Option.some_or]

/-! ## Within one phase -/

/-- Effects that belong to one phase if they belong to any, with what they acquire and what they
give up. -/
structure Within (q : Phase) (gained given : List Resource) (es : List Effect) : Prop where
  phases : ∀ p ∈ phases es, p = q
  acquired : acquired es = gained
  released : released es = given

namespace Within

variable {q : Phase} {gained gained' given given' : List Resource} {es fs : List Effect}

theorem nil : Within q [] [] [] := ⟨by simp, rfl, rfl⟩

/-- Effects within the same phase can be put together, and so can what they gain and give up. -/
theorem append (h : Within q gained given es) (k : Within q gained' given' fs) :
    Within q (gained ++ gained') (given ++ given') (es ++ fs) where
  phases := by
    intro p hp
    rw [phases_append] at hp
    exact (List.mem_append.mp hp).elim (h.phases p) (k.phases p)
  acquired := by rw [acquired_append, h.acquired, k.acquired]
  released := by rw [released_append, h.released, k.released]

/-- If there are any phases at all, the last one is the only one. -/
theorem getLast?_phases (h : Within q gained given es) (hne : Effect.phases es ≠ []) :
    (Effect.phases es).getLast? = some q := by
  rw [List.getLast?_eq_some_getLast hne, h.phases _ (List.getLast_mem hne)]

/-- One effect of a phase that neither acquires nor gives up anything. -/
theorem single {e : Effect} (hphase : e.phase? = some q) (hacquires : e.acquires? = none)
    (hreleases : e.releases? = none) : Within q [] [] [e] := by
  have hphases : Effect.phases [e] = [q] := List.filterMap_cons_some hphase
  exact ⟨by simp [hphases], List.filterMap_cons_none hacquires,
    List.filterMap_cons_none hreleases⟩

/-- The same is done to every element of a list. -/
theorem map {α : Type} {f : α → Effect} (hphase : ∀ x, (f x).phase? = some q)
    (hacquires : ∀ x, (f x).acquires? = none) (hreleases : ∀ x, (f x).releases? = none)
    (xs : List α) : Within q [] [] (xs.map f) := by
  induction xs with
  | nil => exact nil
  | cons x xs ih => exact (single (hphase x) (hacquires x) (hreleases x)).append ih

/-- Lines belong to no phase, so that they are within any. -/
theorem log (w : Worker) (lines : List Log.Line) : Within q [] [] (lines.map (.log w)) := by
  have hphases : Effect.phases (lines.map (.log w)) = [] := phases_log w lines
  exact ⟨by simp [hphases], acquired_eq_nil_of_phases hphases, released_log w lines⟩

theorem mainLines (lines : List Log.Line) : Within q [] [] (mainLines lines) := log .main lines

end Within

/-! ## From one phase to another -/

/-- The phases of effects begin with `first` and end with `last`, in their order. -/
structure Spans (first last : Phase) (es : List Effect) : Prop where
  le : first ≤ last
  ordered : (phases es).Pairwise (· ≤ ·)
  bounded : ∀ p ∈ phases es, first ≤ p ∧ p ≤ last
  /-- A phase is only left out if there may be nothing to do in it. -/
  complete : ∀ p, p.mayIdle = false → first ≤ p → p ≤ last → p ∈ phases es

/-- Effects of one phase. -/
theorem Spans.of_phase {p : Phase} {es : List Effect} (h : ∀ q ∈ phases es, q = p)
    (hp : p.mayIdle = false → phases es ≠ []) : Spans p p es where
  le := Nat.le_refl _
  ordered := by
    refine List.pairwise_of_forall_mem_list fun q hq q' hq' => ?_
    rw [h q hq, h q' hq']
    exact Nat.le_refl _
  bounded := by
    intro q hq
    rw [h q hq]
    exact ⟨Nat.le_refl _, Nat.le_refl _⟩
  complete := by
    intro q hidle hle hge
    -- Between `p` and `p` there is only `p`.
    obtain rfl : q = p := Phase.place_inj.mp (Nat.le_antisymm hge hle)
    obtain ⟨q', hq'⟩ := List.exists_mem_of_ne_nil _ (hp hidle)
    rwa [← h q' hq']

/-- The next phase begins where the last one ends. -/
theorem Spans.append {a b c d : Phase} {es fs : List Effect} (h : Spans a b es)
    (k : Spans c d fs) (hbc : c.place = b.place + 1) : Spans a d (es ++ fs) where
  le := by
    have := h.le
    have := k.le
    simp only [Phase.le_iff] at *
    omega
  ordered := by
    rw [phases_append]
    refine List.pairwise_append.mpr ⟨h.ordered, k.ordered, fun p hp q hq => ?_⟩
    have := (h.bounded p hp).2
    have := (k.bounded q hq).1
    simp only [Phase.le_iff] at *
    omega
  bounded := by
    intro p hp
    have hb := h.le
    have hd := k.le
    rw [phases_append] at hp
    rcases List.mem_append.mp hp with hp | hp
    · have := h.bounded p hp
      simp only [Phase.le_iff] at *
      omega
    · have := k.bounded p hp
      simp only [Phase.le_iff] at *
      omega
  complete := by
    intro p hidle hle hge
    rw [phases_append]
    -- There is no phase between the two pieces.
    by_cases hp : p ≤ b
    · exact List.mem_append_left _ (h.complete p hidle hle hp)
    · refine List.mem_append_right _ (k.complete p hidle ?_ hge)
      simp only [Phase.le_iff] at *
      omega

/-! ## Working and cleaning up -/

/-- Effects from one phase to another that acquire something and give nothing up. -/
structure Work (first last : Phase) (gained : List Resource) (es : List Effect) : Prop where
  spans : Spans first last es
  acquired : acquired es = gained
  released : released es = []

/-- Effects within one phase are the work of this phase, if there is a mark of it or it may be
idle. -/
theorem Within.work {p : Phase} {gained : List Resource} {es : List Effect}
    (h : Within p gained [] es) (hp : p.mayIdle = false → Effect.phases es ≠ []) :
    Work p p gained es :=
  ⟨.of_phase h.phases hp, h.acquired, h.released⟩

/-- The work of phases up to `b` and of those that follow is the work of all of them. -/
theorem Work.append {a b c d : Phase} {gained gained' : List Resource} {es fs : List Effect}
    (h : Work a b gained es) (k : Work c d gained' fs) (hbc : c.place = b.place + 1) :
    Work a d (gained ++ gained') (es ++ fs) where
  spans := h.spans.append k.spans hbc
  acquired := by rw [acquired_append, h.acquired, k.acquired]
  released := by rw [released_append, h.released, k.released, List.append_nil]

/-- Effects that give something up and belong to no phase. -/
structure Cleanup (given : List Resource) (es : List Effect) : Prop where
  phases : phases es = []
  released : released es = given

theorem Cleanup.nil : Cleanup [] [] := ⟨rfl, rfl⟩

/-- What two pieces of cleaning up give up is given up in their order. -/
theorem Cleanup.append {given given' : List Resource} {es fs : List Effect}
    (h : Cleanup given es) (k : Cleanup given' fs) : Cleanup (given ++ given') (es ++ fs) where
  phases := by rw [phases_append, h.phases, k.phases, List.append_nil]
  released := by rw [released_append, h.released, k.released]

/-- Attachments are given up one after the other. -/
theorem Cleanup.attachments (as : List Attachment) :
    Cleanup (as.map .link) (as.flatMap releaseAttachment) := by
  induction as with
  | nil => exact .nil
  | cons a as ih =>
    have ha : Cleanup [.link a] (releaseAttachment a) := ⟨rfl, rfl⟩
    exact ha.append ih

end Effect

end Engine

end EgressControl
