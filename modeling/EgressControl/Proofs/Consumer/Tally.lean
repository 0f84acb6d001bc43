import EgressControl.Proofs.Allow.Kernel
import EgressControl.Proofs.Allow.Observe
import EgressControl.Proofs.Consumer.Steps
import EgressControl.Proofs.Report.Rows

/-!
# Three counts of the same connections

While connections are dealt with, the consumer counts them, the report counts them in total and row
by row, and the allow list remembers which addresses it has let in.  `Tallied` says that all of this
fits together, and with it what stands in the kernel's map; every sample keeps it (`Tallied.step`),
and so does every list of them (`Tallied.steps`).
-/

namespace EgressControl

namespace Consumer

/-- The counts of a consumer agree with each other and with the kernel's map.  `base` is the map
before the first connection. -/
structure Tallied (base : AllowMap) (k : Consumer AllowMap) : Prop where
  processed : k.stats.processed = k.reporter.report.totalEvents
  rows : k.reporter.report.counted = k.reporter.report.totalEvents
  grown : base.Grown k.allow.store fun x => k.allow.extended.contains x = true

namespace Tallied

variable {base : AllowMap} {k : Consumer AllowMap}

/-- `observe` grows the map by the addresses that it adds to `extended`, and by no others. -/
private theorem grown_observe (h : Tallied base k) (x : Ipv4) (names : List String) :
    base.Grown (k.allow.observe x names).manager.store fun y =>
      (k.allow.observe x names).manager.extended.contains y = true := by
  rcases k.allow.observe_cases x names with
    ⟨-, heq⟩ | ⟨_, _, -, -, heq⟩ | ⟨_, store, -, hput, heq⟩ <;> rw [heq]
  · exact h.grown
  · -- A write that fails lets nothing in.
    exact h.grown
  · exact h.grown.put hput fun y => Table.contains_insert

/-- A connection is counted once by the consumer, in total and in its row. -/
private theorem handle (h : Tallied base k) (r : Resolver) (c : Connection) :
    Tallied base (k.handle r c).1 where
  processed := by
    have hprocessed := h.processed
    simp only [Consumer.handle, Reporter.report_record, Report.record]
    omega
  rows := by
    have hrows := h.rows
    simp only [Consumer.handle, Reporter.report_record, Report.counted_record]
    simp only [Report.record]
    omega
  grown := h.grown_observe c.destination (r.namesOf c.destination)

/-- Whatever a sample is, the counts agree afterwards. -/
theorem step (h : Tallied base k) (r : Resolver) (x : Sample) : Tallied base (k.step r x).1 := by
  cases x with
  | fault cpu cause => exact ⟨h.processed, h.rows, h.grown⟩
  | bytes raw =>
    simp only [Consumer.step, handleBytes]
    split
    · exact ⟨h.processed, h.rows, h.grown⟩
    · exact h.handle r _

/-- `steps` is a list of single steps. -/
theorem steps (h : Tallied base k) (r : Resolver) (xs : List Sample) :
    Tallied base (k.steps r xs).1 := by
  induction xs generalizing k with
  | nil => exact h
  | cons x xs ih => exact ih (h.step r x)

end Tallied

end Consumer

end EgressControl
