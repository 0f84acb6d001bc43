import EgressControl.Proofs.Address.Endpoint
import EgressControl.Proofs.Text.ByteOrder
import EgressControl.Report.Basic
import Mathlib.Algebra.Ring.Nat

/-!
# The rows of a report

Every connection belongs to the row with its key.  It changes this row and no other
(`get?_rows_record`), and is counted in it (`counted_record`).

The rows are in the order of their keys, and keys compare first by the bytes of the task, then by
address and by port (`compare_eq_lt_iff`).  What is shown of a key is enough to tell it from all
others (`shown_inj`).
-/

namespace EgressControl.Report

/-! ## Keys -/

namespace Key

/-- One key comes before another one: its task has the smaller bytes, or it has the same task and
the smaller address, or also the same address and the smaller port. -/
def Before (k j : Key) : Prop :=
  k.task.toUTF8.data.toList < j.task.toUTF8.data.toList ∨
    k.task = j.task ∧ (k.destination.toNat < j.destination.toNat ∨
      k.destination = j.destination ∧ k.port.toNat < j.port.toNat)

/-- Keys are compared as `Before` says. -/
theorem compare_eq_lt_iff {k j : Key} : compare k j = .lt ↔ k.Before j := by
  have htask : compare k.task j.task = .lt ↔
      k.task.toUTF8.data.toList < j.task.toUTF8.data.toList := by
    rw [← Text.lt_iff_toUTF8_lt]
    exact compareOfLessAndEq_eq_lt
  have hdestination : compare k.destination j.destination = .lt ↔
      k.destination.toNat < j.destination.toNat := Nat.compare_eq_lt
  have hport : compare k.port j.port = .lt ↔ k.port.toNat < j.port.toNat := Std.compare_eq_lt
  -- The order of keys is that of their parts, one after the other.
  show cmp k j = .lt ↔ k.Before j
  simp only [cmp, compareLex, compareOn, Ordering.then_eq_lt, Before, htask, hdestination, hport,
    Std.LawfulEqCmp.compare_eq_iff_eq]

/-- What is shown of a key. -/
def shown (k : Key) : String × String := (k.task, Connection.endpoint k.destination k.port)

/-- Two keys that are shown alike are the same. -/
theorem shown_inj {k j : Key} : k.shown = j.shown ↔ k = j := by
  obtain ⟨task, destination, port⟩ := k
  obtain ⟨task', destination', port'⟩ := j
  simp [shown, Connection.endpoint_inj]

end Key

/-! ## A connection and its row -/

/-- A connection changes its own row, and no other. -/
theorem get?_rows_record (p : Report) (k j : Key) (domains : List String) (allowed : Bool) :
    (p.record k domains allowed).rows.get? j =
      if j = k then some (Row.count k domains allowed (p.rows.get? k)) else p.rows.get? j := by
  simp only [record, Table.get?_alter, Std.LawfulEqCmp.compare_eq_iff_eq]

/-- A row is marked if it was before, or if the connection is allowed. -/
theorem Row.allowed_count (k : Key) (domains : List String) (allowed : Bool) (o : Option Row) :
    (Row.count k domains allowed o).allowed = true ↔
      (∃ row, o = some row ∧ row.allowed = true) ∨ allowed = true := by
  cases o <;> simp [Row.count]

/-- The number of connections in all rows. -/
def counted (p : Report) : Nat := (p.rows.values.map (·.connections)).sum

/-- A connection is counted in one row, be it old or new. -/
private theorem sum_alterIn (k : Key) (domains : List String) (allowed : Bool)
    (es : List (Key × Row)) :
    ((Table.alterIn k (Row.count k domains allowed) es).map (·.2.connections)).sum =
      (es.map (·.2.connections)).sum + 1 := by
  induction es with
  | nil => rfl
  | cons e rest ih =>
    obtain ⟨j, row⟩ := e
    unfold Table.alterIn
    -- The row is new and comes first, it is this one, or it comes later.
    split
    · simp only [Row.count, List.map_cons, List.sum_cons]
      omega
    · simp only [Row.count, List.map_cons, List.sum_cons]
      omega
    · simp only [List.map_cons, List.sum_cons, ih]
      omega

/-- `record` counts its connection in one row, be it old or new. -/
theorem counted_record (p : Report) (k : Key) (domains : List String) (allowed : Bool) :
    (p.record k domains allowed).counted = p.counted + 1 := by
  have hsum := sum_alterIn k domains allowed p.rows.entries
  simpa [counted, record, Table.values, Table.alter, List.map_map, Function.comp_def] using hsum

end EgressControl.Report
