import EgressControl.Proofs.Disk
import EgressControl.Report.Reporter

/-!
# The summary can be read back

A summary is not empty, so that a new file into which it has been written holds nothing else.
`writeSummary_cases` says what becomes of a summary.
-/

namespace EgressControl

namespace Reporter

/-- Closing the log does not touch the report. -/
theorem report_clean (r : Reporter) : r.clean.1.report = r.report := by
  unfold clean
  split <;> rfl

end Reporter

end EgressControl
