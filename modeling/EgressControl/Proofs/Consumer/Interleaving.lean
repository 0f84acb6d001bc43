import EgressControl.Proofs.Allow.Observe
import EgressControl.Proofs.Allow.Store
import EgressControl.Proofs.Consumer.Steps

/-!
# The order of the samples does not matter

Samples of different processors come in any order.  If the store has room for every address, then
counts, allow list and report do not depend on it: whether an address is let in is decided by the
names and the store alone (`observe_of_unlimited`), so that two connections can be exchanged
(`Findings.add_comm`), and with them any two neighbours of a list (`Findings.foldl_add_perm`).

Only the log of connections tells the order, which is why the reporters are compared by their
reports (`Findings.Agree`).

`run_perm` is the result for a run.
-/

namespace EgressControl

/-! ## Letting in -/

namespace AllowManager

/-- Whether an address is let in by a store that has room for it. -/
def welcomes (m : AllowManager MemoryStore) (r : Resolver) (x : Ipv4) : Bool :=
  (m.matchingName (r.namesOf x)).isSome && decide (x ∉ m.store.rejected)

/-- Lets an address in. -/
def letIn (m : AllowManager MemoryStore) (x : Ipv4) : AllowManager MemoryStore :=
  { m with
    store := { m.store with entries := m.store.entries.insert x.key allowPresent }
    extended := m.extended.add x }

/-- In which order two addresses are let in cannot be seen afterwards. -/
private theorem letIn_comm (m : AllowManager MemoryStore) (x y : Ipv4) :
    (m.letIn x).letIn y = (m.letIn y).letIn x := by
  have hentries : (m.store.entries.insert x.key allowPresent).insert y.key allowPresent =
      (m.store.entries.insert y.key allowPresent).insert x.key allowPresent :=
    Table.alter_comm fun _ _ => rfl
  have hextended : (m.extended.add x).add y = (m.extended.add y).add x :=
    Table.alter_comm fun _ _ => rfl
  simp only [letIn, hentries, hextended]

/-- Without a limit, an observation depends on the names and on what can be written. -/
theorem observe_of_unlimited {m : AllowManager MemoryStore} (h : m.store.capacity = none)
    (r : Resolver) (x : Ipv4) :
    (m.observe x (r.namesOf x)).manager = (if m.welcomes r x then m.letIn x else m) ∧
      (m.observe x (r.namesOf x)).allowed = m.welcomes r x := by
  have hrefuses := MemoryStore.refuses_iff_of_capacity_eq_none h (x := x)
  rcases m.observe_cases x (r.namesOf x) with
    ⟨hname, heq⟩ | ⟨name, e, hname, hput, heq⟩ | ⟨name, store, hname, hput, heq⟩
  · simp [heq, welcomes, hname]
  · have hrej := hrefuses.mp (MemoryStore.refuses_of_put_error hput)
    simp [heq, welcomes, hrej]
  · obtain ⟨hopen, rfl⟩ := MemoryStore.put_eq_ok_iff.mp hput
    have hrej : x ∉ m.store.rejected := fun hx => hopen (hrefuses.mpr hx)
    simp [heq, welcomes, hname, hrej, letIn]

end AllowManager

/-! ## Counting in the report -/

/-- In which order two connections are counted cannot be seen, if those of one row have the same
names and the same mark. -/
private theorem Report.record_comm (p : Report) {k j : Report.Key} {ds es : List String}
    {a b : Bool}
    (h : k = j → ds = es ∧ a = b) :
    (p.record k ds a).record j es b = (p.record j es b).record k ds a := by
  have hrows : (p.rows.alter k (Row.count k ds a)).alter j (Row.count j es b) =
      (p.rows.alter j (Row.count j es b)).alter k (Row.count k ds a) := by
    refine Table.alter_comm ?_
    rintro rfl o
    obtain ⟨rfl, rfl⟩ := h rfl
    rfl
  simp only [record, hrows]

/-! ## Exchanging connections -/

namespace Findings

/-- The same allow list and the same report, whatever stands in the log of connections. -/
structure Agree {σ : Type} (f g : Findings σ) : Prop where
  allow : f.allow = g.allow
  report : f.reporter.report = g.reporter.report

namespace Agree

variable {σ : Type} {f g h : Findings σ}

/-- Findings `Agree` with themselves. -/
theorem refl (f : Findings σ) : Agree f f := ⟨rfl, rfl⟩

/-- `Agree` is transitive, so that a chain of exchanges can be followed. -/
private theorem trans (hfg : Agree f g) (hgh : Agree g h) : Agree f h :=
  ⟨hfg.allow.trans hgh.allow, hfg.report.trans hgh.report⟩

variable [AllowStore σ]

/-- What agrees goes on agreeing, if connections of one row are taken in. -/
theorem add_of_keyOf_eq (hfg : Agree f g) (r : Resolver) {c d : Connection}
    (h : Report.keyOf c = Report.keyOf d) : Agree (f.add r c) (g.add r d) := by
  have hdest : c.destination = d.destination := congrArg Report.Key.destination h
  constructor
  · simp only [Findings.add, hfg.allow, hdest]
  · simp only [Findings.add, Reporter.report_record, hfg.allow, hfg.report, hdest, h]

/-- Findings that `Agree` go on doing so when the same connection is added. -/
private theorem add (hfg : Agree f g) (r : Resolver) (c : Connection) :
    Agree (f.add r c) (g.add r c) :=
  hfg.add_of_keyOf_eq r rfl

/-- Findings that `Agree` go on doing so when the same connections are added in the same order. -/
private theorem foldl_add (hfg : Agree f g) (r : Resolver) (cs : List Connection) :
    Agree (cs.foldl (Findings.add r) f) (cs.foldl (Findings.add r) g) := by
  induction cs generalizing f g with
  | nil => exact hfg
  | cons c cs ih => exact ih (hfg.add r c)

end Agree

section

variable {f g : Findings MemoryStore} (hcap : f.allow.store.capacity = none) (r : Resolver)
include hcap

/-- What a connection leaves behind, if the store has no limit. -/
private theorem add_of_unlimited (c : Connection) :
    (f.add r c).allow =
        (if f.allow.welcomes r c.destination then f.allow.letIn c.destination else f.allow) ∧
      (f.add r c).reporter.report =
        f.reporter.report.record (Report.keyOf c) (r.namesOf c.destination)
          (f.allow.welcomes r c.destination) := by
  obtain ⟨hmanager, hallowed⟩ := AllowManager.observe_of_unlimited hcap r c.destination
  exact ⟨hmanager, by rw [add, Reporter.report_record, hallowed]⟩

/-- A store without limit stays one. -/
private theorem capacity_add (c : Connection) : (f.add r c).allow.store.capacity = none := by
  rw [(add_of_unlimited hcap r c).1]
  split <;> exact hcap

/-- A connection makes no difference to whether another address is let in. -/
private theorem welcomes_add (c : Connection) (x : Ipv4) :
    (f.add r c).allow.welcomes r x = f.allow.welcomes r x := by
  rw [(add_of_unlimited hcap r c).1]
  split <;> rfl

/-- Two connections can be exchanged. -/
theorem add_comm (c d : Connection) : Agree ((f.add r c).add r d) ((f.add r d).add r c) := by
  obtain ⟨hc, hc'⟩ := add_of_unlimited hcap r c
  obtain ⟨hd, hd'⟩ := add_of_unlimited hcap r d
  obtain ⟨hcd, hcd'⟩ := add_of_unlimited (capacity_add hcap r c) r d
  obtain ⟨hdc, hdc'⟩ := add_of_unlimited (capacity_add hcap r d) r c
  rw [welcomes_add hcap] at hcd hcd' hdc hdc'
  constructor
  · rw [hcd, hdc, hc, hd]
    -- Whether one is let in does not depend on the other, so that there are four cases.
    have hcomm := AllowManager.letIn_comm f.allow c.destination d.destination
    cases f.allow.welcomes r c.destination <;> cases f.allow.welcomes r d.destination <;>
      simp [hcomm]
  · rw [hcd', hdc', hc', hd']
    refine Report.record_comm _ fun hkey => ?_
    -- Connections of one row have the same destination, and so the same names.
    have hdest : c.destination = d.destination := congrArg Report.Key.destination hkey
    rw [hdest]
    exact ⟨rfl, rfl⟩

/-- Connections can be taken in in any order. -/
theorem foldl_add_perm {cs ds : List Connection} (h : cs.Perm ds) (hfg : Agree f g) :
    Agree (cs.foldl (add r) f) (ds.foldl (add r) g) := by
  induction h generalizing f g with
  | nil => exact hfg
  | cons c _ ih => exact ih (capacity_add hcap r c) (hfg.add r c)
  | swap c d cs =>
    -- The first two change places, and the rest goes on from findings that agree.
    have hswap := (add_comm hcap r d c).trans ((hfg.add r c).add r d)
    exact hswap.foldl_add r cs
  | trans _ _ ih₁ ih₂ =>
    have hcap' : g.allow.store.capacity = none := hfg.allow ▸ hcap
    exact (ih₁ hcap hfg).trans (ih₂ hcap' (.refl g))

end

end Findings

/-! ## Exchanging samples -/

/-- The counts do not depend on the order of the samples. -/
private theorem ConsumerStats.plus_perm (c : ConsumerStats) {xs ys : List Sample} (h : xs.Perm ys) :
    c.plus xs = c.plus ys := by
  simp only [plus, h.countP_eq]

namespace Consumer

/-- If the store has no `capacity`, two runs over samples that are permutations of each other end
with equal counts, `entries`, `extended` addresses and reports; so `summary` and `render` are
equal too. -/
theorem run_perm (r : Resolver) (m : AllowManager MemoryStore) (reporter : Reporter)
    (name : String) {xs ys : List Sample} (hcap : m.store.capacity = none) (h : xs.Perm ys) :
    let p := (starting m reporter).run r none (.holding name xs)
    let q := (starting m reporter).run r none (.holding name ys)
    p.consumer.stats = q.consumer.stats ∧
    p.consumer.allow.store.entries = q.consumer.allow.store.entries ∧
    p.consumer.allow.extended = q.consumer.allow.extended ∧
    p.consumer.reporter.report = q.consumer.reporter.report ∧
    (∀ time, p.consumer.reporter.report.summary time = q.consumer.reporter.report.summary time) ∧
    p.consumer.reporter.report.render = q.consumer.reporter.report.render := by
  have hagree := Findings.foldl_add_perm hcap r (h.filterMap Sample.connection?)
    (.refl (starting m reporter).findings)
  rw [← findings_steps, ← findings_steps] at hagree
  have hallow : ((starting m reporter).steps r xs).1.allow =
      ((starting m reporter).steps r ys).1.allow := hagree.allow
  have hreport : ((starting m reporter).steps r xs).1.reporter.report =
      ((starting m reporter).steps r ys).1.reporter.report := hagree.report
  simp only [run_holding, stats_steps, ConsumerStats.plus_perm _ h, hallow, hreport]
  simp

/-- Two records in either order, the second of which is let in. -/
theorem run_perm_reverse :
    ({} : MemoryStore).capacity = none ∧ twoRecords.Perm twoRecords.reverse ∧
    (run ⟨.empty, .ofList [(⟨7, 7, 7, 7⟩, ["seven.example."])]⟩ none
        (starting (⟨{}, ["example"], .empty⟩ : AllowManager MemoryStore) default)
        (.holding "ipv4_events" twoRecords)).consumer.reporter.report =
      (run ⟨.empty, .ofList [(⟨7, 7, 7, 7⟩, ["seven.example."])]⟩ none
        (starting (⟨{}, ["example"], .empty⟩ : AllowManager MemoryStore) default)
        (.holding "ipv4_events" twoRecords.reverse)).consumer.reporter.report := by
  have hperm : twoRecords.Perm twoRecords.reverse := (List.reverse_perm _).symm
  exact ⟨rfl, hperm, (run_perm _ (⟨{}, ["example"], .empty⟩ : AllowManager MemoryStore) default
    "ipv4_events" rfl hperm).2.2.2.1⟩

end Consumer

end EgressControl
