import EgressControl.Proofs.Report.ObservationLog
import EgressControl.Proofs.Report.Rows
import Mathlib.Data.List.Dedup
import Mathlib.Data.List.Forall2

/-!
# What the rows of a summary are

Rows are made and changed one call at a time.  Looking back, each of them is made of the calls with
its key and of no others (`SumsUp`): the first one gives the names, all of them are counted, and any
of them may mark the row.

- `get?_rows_take`, `get?_rows_foldl`: what one call, and what a list of calls does to a row;
- `nodup_texts`: rows can be told from each other by what is shown of their keys;
- `summary_aggregates`: the whole summary.
-/

namespace EgressControl

namespace Report

open Reporter (Call)

/-! ## Taking in calls -/

/-- The report after a call. -/
def take (p : Report) (c : Call) : Report :=
  p.record (keyOf c.connection) c.domains c.allowed

/-- The calls with a key. -/
def callsOf (calls : List Call) (k : Key) : List Call :=
  calls.filter (keyOf ·.connection = k)

/-- What a call makes of the row with its key. -/
def Row.take (k : Key) (o : Option Row) (c : Call) : Option Row :=
  some (Row.count k c.domains c.allowed o)

/-- `take` counts its call in the row with its key, and leaves all other rows alone. -/
theorem get?_rows_take (p : Report) (c : Call) (k : Key) :
    (p.take c).rows.get? k = (callsOf [c] k).foldl (Row.take k) (p.rows.get? k) := by
  rw [take, get?_rows_record]
  by_cases hk : k = keyOf c.connection
  · subst hk
    simp [callsOf, Row.take]
  · simp [callsOf, hk, Ne.symm hk]

/-- Only the calls with its key have to do with a row. -/
theorem get?_rows_foldl (p : Report) (calls : List Call) (k : Key) :
    (calls.foldl take p).rows.get? k = (callsOf calls k).foldl (Row.take k) (p.rows.get? k) := by
  induction calls generalizing p with
  | nil => rfl
  | cons c cs ih =>
    -- What the first call does to the row comes before what the others do.
    have hcalls : callsOf (c :: cs) k = callsOf [c] k ++ callsOf cs k :=
      List.filter_append [c] cs
    rw [List.foldl_cons, ih, get?_rows_take, hcalls, List.foldl_append]

/-- Later calls are counted in a row, and may mark it. -/
private theorem foldl_rowTake (k : Key) (cs : List Call) (row : Row) :
    cs.foldl (Row.take k) (some row) = some { row with
      connections := row.connections + cs.length
      allowed := row.allowed || cs.any (·.allowed) } := by
  induction cs generalizing row with
  | nil => simp
  | cons c cs ih =>
    rw [List.foldl_cons, Row.take, ih]
    simp [Row.count, Nat.add_comm, Nat.add_left_comm, Bool.or_assoc]

/-- A row is what the calls with its key come to. -/
structure SumsUp (calls : List Call) (k : Key) (row : Row) : Prop where
  task : row.task = k.task
  destination : row.destination = k.destination.text ++ ":" ++ k.port.toNat.repr
  /-- The names are those of the first call. -/
  domains : ∃ first rest, callsOf calls k = first :: rest ∧ row.domains = first.domains
  connections : row.connections = (callsOf calls k).length
  allowed : row.allowed = true ↔ ∃ c ∈ callsOf calls k, c.allowed = true

/-- Every row `SumsUp` the calls with its key. -/
theorem sumsUp_of_get? {calls : List Call} {k : Key} {row : Row}
    (h : (calls.foldl take {}).rows.get? k = some row) : SumsUp calls k row := by
  rw [get?_rows_foldl] at h
  cases hcalls : callsOf calls k with
  | nil =>
    -- Without a call there is no row.
    rw [hcalls] at h
    simp at h
  | cons first rest =>
    -- The first call makes the row, and the others are counted in it.
    rw [hcalls, List.foldl_cons, Row.take, foldl_rowTake] at h
    obtain rfl := Option.some.inj h
    refine ⟨rfl, rfl, ⟨first, rest, hcalls, rfl⟩, ?_, ?_⟩
    · rw [hcalls]
      exact Nat.add_comm ..
    · rw [hcalls]
      simp [Row.count]

/-- A row has the names of one of the calls with its key. -/
theorem SumsUp.exists_call {calls : List Call} {k : Key} {row : Row} (h : SumsUp calls k row) :
    ∃ c ∈ calls, keyOf c.connection = k ∧ row.domains = c.domains := by
  obtain ⟨first, rest, hcalls, hdomains⟩ := h.domains
  have hfirst : first ∈ callsOf calls k := hcalls ▸ List.mem_cons_self
  obtain ⟨hmem, hkey⟩ := List.mem_filter.mp hfirst
  exact ⟨first, hmem, of_decide_eq_true hkey, hdomains⟩

/-- Row by row, the report sums up the calls with the key of the row. -/
theorem forall₂_sumsUp (calls : List Call) :
    List.Forall₂ (SumsUp calls) (calls.foldl take {}).rows.keys
      (calls.foldl take {}).rows.values := by
  rw [Table.keys, Table.values, List.forall₂_map_left_iff, List.forall₂_map_right_iff,
    List.forall₂_same]
  intro e he
  exact sumsUp_of_get? (Table.get?_eq_some_iff.mpr he)

/-- `take` adds the key of its call, and no other. -/
private theorem mem_keys_take {p : Report} {c : Call} {k : Key} :
    k ∈ (p.take c).rows.keys ↔ k = keyOf c.connection ∨ k ∈ p.rows.keys := Table.mem_keys_alter

/-- There is a row for every key of a call. -/
private theorem mem_keys_foldl {p : Report} {calls : List Call} {k : Key} :
    k ∈ (calls.foldl take p).rows.keys ↔
      (∃ c ∈ calls, keyOf c.connection = k) ∨ k ∈ p.rows.keys := by
  induction calls generalizing p with
  | nil => simp
  | cons c cs ih =>
    rw [List.foldl_cons, ih, mem_keys_take, eq_comm (a := k)]
    simp only [List.mem_cons, exists_eq_or_imp, or_assoc]
    exact or_left_comm

/-- A report has a row for a key exactly if there is a call with this key. -/
theorem mem_keys_iff {calls : List Call} {k : Key} :
    k ∈ (calls.foldl take {}).rows.keys ↔ ∃ c ∈ calls, keyOf c.connection = k := by
  rw [mem_keys_foldl]
  simp [Table.keys, Table.empty]

/-- The rows are in the order of their keys. -/
theorem pairwise_keys (p : Report) : p.rows.keys.Pairwise Key.Before :=
  List.pairwise_map.mpr (p.rows.ordered.imp Key.compare_eq_lt_iff.mp)

/-! ## The figures -/

/-- Every call counts once in the total, and once in its row. -/
private theorem totals_foldl (p : Report) (calls : List Call) :
    (calls.foldl take p).totalEvents = p.totalEvents + calls.length ∧
      (calls.foldl take p).counted = p.counted + calls.length := by
  induction calls generalizing p with
  | nil => exact ⟨rfl, rfl⟩
  | cons c cs ih =>
    -- Each call adds one to the total and one to the count of its row.
    obtain ⟨htotal, hcounted⟩ := ih (p.take c)
    rw [take, counted_record] at hcounted
    rw [List.foldl_cons, List.length_cons, htotal]
    refine ⟨?_, ?_⟩
    · show p.totalEvents + 1 + cs.length = _
      omega
    · rw [take, hcounted]
      omega

/-- The different addresses are counted. -/
private theorem uniqueDestinations_eq {p : Report} {xs : List Ipv4}
    (h : ∀ x, x ∈ xs ↔ ∃ k ∈ p.rows.keys, k.destination = x) :
    p.uniqueDestinations = xs.dedup.length := by
  have hperm : (AddressSet.addAll .empty (p.rows.keys.map (·.destination))).keys.Perm xs.dedup := by
    refine (List.perm_ext_iff_of_nodup (Table.nodup_keys _) (List.nodup_dedup _)).mpr fun x => ?_
    rw [← Table.contains_iff, AddressSet.contains_addAll, List.mem_map, List.mem_dedup, h]
    simp [Table.contains]
  rw [← hperm.length_eq, Table.keys, List.length_map]
  rfl

/-! ## The whole summary -/

/-- A summary is the one of these calls. -/
structure Summary.Aggregates (s : Summary) (calls : List Call) : Prop where
  /-- There is one row for each key of a call, and the rows are in the order of their keys. -/
  rows : ∃ keys : List Key, keys.Pairwise Key.Before ∧
    (∀ k, k ∈ keys ↔ ∃ c ∈ calls, keyOf c.connection = k) ∧
    List.Forall₂ (SumsUp calls) keys s.connections
  /-- Every call is in one row. -/
  sum : (s.connections.map (·.connections)).sum = s.totalEvents
  totalEvents : s.totalEvents = calls.length
  uniqueDestinations :
    s.uniqueDestinations = (calls.map (·.connection.destination)).dedup.length
  /-- No two rows have the same texts. -/
  texts : (s.connections.map fun row => (row.task, row.destination)).Nodup

/-- If rows have different keys, then what is shown of the keys is different, too. -/
theorem nodup_texts {calls : List Call} {keys : List Key} {rows : List Row} (hkeys : keys.Nodup)
    (h : List.Forall₂ (SumsUp calls) keys rows) :
    (rows.map fun row => (row.task, row.destination)).Nodup := by
  have htexts : rows.map (fun row => (row.task, row.destination)) = keys.map Key.shown := by
    induction h with
    | nil => rfl
    | @cons k row keys rows hrow _ ih =>
      rw [List.map_cons, List.map_cons, ih (List.nodup_cons.mp hkeys).2, hrow.task,
        hrow.destination]
      rfl
  rw [htexts]
  exact hkeys.map fun k j hkj => Key.shown_inj.mp hkj

/-- The summary of a report `Aggregates` the calls that it has taken in. -/
private theorem summary_foldl_aggregates (calls : List Call) (timestamp : String) :
    ((calls.foldl take {}).summary timestamp).Aggregates calls := by
  obtain ⟨htotal, hcounted⟩ := totals_foldl {} calls
  constructor
  case rows => exact ⟨_, pairwise_keys _, fun k => mem_keys_iff, forall₂_sumsUp calls⟩
  case sum => exact hcounted.trans htotal.symm
  case totalEvents => exact htotal.trans (Nat.zero_add _)
  case uniqueDestinations =>
    -- A destination has a row just if some call was made to it.
    apply uniqueDestinations_eq
    intro x
    constructor
    · intro hx
      obtain ⟨c, hc, rfl⟩ := List.mem_map.mp hx
      exact ⟨keyOf c.connection, mem_keys_iff.mpr ⟨c, hc, rfl⟩, rfl⟩
    · rintro ⟨k, hk, rfl⟩
      obtain ⟨c, hc, rfl⟩ := mem_keys_iff.mp hk
      exact List.mem_map.mpr ⟨c, hc, rfl⟩
  case texts => exact nodup_texts (Table.nodup_keys _) (forall₂_sumsUp calls)

end Report

namespace Reporter

/-- The `summary` of a new reporter after any calls `Aggregates` them. -/
theorem summary_aggregates {logPath : Option String} {d : Disk} {clock : Nat → String}
    {r : Reporter} (h : new logPath d clock = .ok r) (calls : List Call) (timestamp : String) :
    ((r.recordAll calls).1.report.summary timestamp).Aggregates calls := by
  rw [report_recordAll, report_new h]
  exact Report.summary_foldl_aggregates calls timestamp

/-- Two calls of one row, of which the second one is allowed, and between them one to another
port. -/
def threeCalls : List Call :=
  [⟨⟨1, 7, "curl", ⟨10, 0, 0, 1⟩, 443⟩, ["x."], false⟩,
   ⟨⟨2, 8, "curl", ⟨10, 0, 0, 1⟩, 80⟩, [], false⟩,
   ⟨⟨3, 7, "curl", ⟨10, 0, 0, 1⟩, 443⟩, ["y."], true⟩]

/-- Two of three calls share a row, which keeps the names of the first of them. -/
theorem summary_aggregates_threeCalls :
    new none .fresh (fun _ => "") = .ok default ∧
      ((default : Reporter).recordAll threeCalls).1.report.rows.values =
        [⟨"curl", "10.0.0.1:80", [], 1, false⟩, ⟨"curl", "10.0.0.1:443", ["x."], 2, true⟩] ∧
      (((default : Reporter).recordAll threeCalls).1.report.summary "").Aggregates threeCalls := by
  have hnew : new none .fresh (fun _ => "") = .ok default := rfl
  exact ⟨hnew, by decide +kernel, summary_aggregates hnew threeCalls ""⟩

end Reporter

end EgressControl
