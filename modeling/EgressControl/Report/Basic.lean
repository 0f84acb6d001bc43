import EgressControl.Address.Set
import EgressControl.Connection
import EgressControl.Report.Document

/-! # The report of a run

A `Report` counts the connections of a run: there is one row for each task, destination and
port, and the rows stand in the order of these.  `record` takes in one connection, `summary` and
`render` show the whole. -/

namespace EgressControl

/-- What the connections of one row have in common. -/
structure Report.Key where
  task : String
  destination : Ipv4
  port : UInt16
  deriving DecidableEq

namespace Report.Key

/-- Rows are ordered by task, then by address, then by port. -/
def cmp : Key → Key → Ordering :=
  compareLex (compareOn task) (compareLex (compareOn destination) (compareOn port))

instance : Ord Key := ⟨cmp⟩

instance : Std.TransOrd Key :=
  inferInstanceAs (Std.TransCmp (compareLex (compareOn task)
    (compareLex (compareOn destination) (compareOn port))))

instance : Std.LawfulEqOrd Key where
  compare_self {x} := by
    obtain ⟨t, d, p⟩ := x
    show cmp ⟨t, d, p⟩ ⟨t, d, p⟩ = .eq
    simp [cmp, compareLex_eq_eq, compareOn]
  eq_of_compare {x y} h := by
    obtain ⟨t, d, p⟩ := x
    obtain ⟨t', d', p'⟩ := y
    simp only [compare, cmp, compareLex, Ordering.then_eq_eq] at h
    obtain ⟨ht, hd, hp⟩ := h
    congr 1
    · exact Std.LawfulEqOrd.eq_of_compare ht
    · exact Std.LawfulEqOrd.eq_of_compare hd
    · exact Std.LawfulEqOrd.eq_of_compare hp

end Report.Key

/-- The connections of a run. -/
structure Report where
  rows : Table Report.Key Report.Row := .empty
  /-- The number of connections, which fits a word of 64 bits as long as `Consumer.counts_lt_size`
  says. -/
  totalEvents : Nat := 0

namespace Report

/-- The row to which a connection belongs. -/
def keyOf (c : Connection) : Key := ⟨c.task, c.destination, c.port⟩

/-- A row after another connection; the names of the first one stay. -/
def Row.count (key : Key) (domains : List String) (allowed : Bool) : Option Row → Row
  | none => ⟨key.task, Connection.endpoint key.destination key.port, domains, 1, allowed⟩
  | some r => { r with connections := r.connections + 1, allowed := r.allowed || allowed }

/-- Takes in a connection: the row to which it belongs, the names of its destination, and
whether it was allowed because of one of them. -/
def record (r : Report) (key : Key) (domains : List String) (allowed : Bool) : Report where
  rows := r.rows.alter key (Row.count key domains allowed)
  totalEvents := r.totalEvents + 1

/-- The number of rows. -/
def connectionCount (r : Report) : Nat := r.rows.size

/-- The number of different addresses. -/
def uniqueDestinations (r : Report) : Nat :=
  (AddressSet.addAll .empty (r.rows.keys.map (·.destination))).size

/-- The summary of the run. -/
def summary (r : Report) (timestamp : String) : Summary :=
  ⟨timestamp, r.totalEvents, r.uniqueDestinations, r.rows.values⟩

/-- One line of the table. -/
def tableLine (task destination connections allowed domains : String) : String :=
  Text.padRight 16 task ++ " " ++ Text.padRight 21 destination ++ " " ++
    Text.padLeft 6 connections ++ " " ++ Text.padRight 7 allowed ++ " " ++ domains ++ "\n"

/-- The first line of the table. -/
def headerLine : String := tableLine "TASK" "DESTINATION" "COUNT" "ALLOWED" "DOMAINS"

/-- The line of a row. -/
def rowLine (r : Row) : String :=
  tableLine r.task r.destination r.connections.repr (if r.allowed then "yes" else "no")
    (",".intercalate r.domains)

/-- The last line of the table. -/
def totalsLine (r : Report) : String :=
  r.totalEvents.repr ++ " event(s), " ++ r.connectionCount.repr ++ " connection(s)\n"

/-- The report as a table for people. -/
def render (r : Report) : String :=
  headerLine ++ String.join (r.rows.values.map rowLine) ++ r.totalsLine

/-- What is printed at the end of a run. -/
def printed (r : Report) : String := "----\n\n" ++ r.render ++ "----\n"

end Report

end EgressControl
