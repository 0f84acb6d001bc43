import EgressControl.Proofs.Address.Endpoint
import EgressControl.Proofs.Record.Layout
import Mathlib.Data.List.DropRight

/-!
# The line on a connection

A connection is shown as `[pid]task -> address:port`, with the task in a column of 16 characters.
What a task is called is up to its program, so that there may be anything in the column, also what
looks like the rest of a line.  Nothing comes of it, because the number before the column ends at
the first bracket and the column has its width for every record (`display_eq_iff`).

The column does not show how many spaces there are at the end of a name, and this is all that it
does not show (`Text.padRight_eq_iff`).
-/

namespace EgressControl

namespace Text

variable {w : Nat} {s t : String}

/-- A text without the spaces at its end. -/
def unpadded (s : String) : List Char := s.toList.rdropWhile (· = ' ')

/-- A text is what `unpadded` leaves of it, and some spaces behind. -/
private theorem unpadded_eq (s : String) : ∃ n, s.toList = unpadded s ++ List.replicate n ' ' := by
  have hspaces : ∀ c ∈ s.toList.rtakeWhile (· = ' '), c = ' ' := fun c hc => by
    simpa using List.mem_rtakeWhile_imp hc
  refine ⟨(s.toList.rtakeWhile (· = ' ')).length, ?_⟩
  rw [← List.eq_replicate_of_mem hspaces]
  exact List.rdropWhile_append_rtakeWhile.symm

/-- Padding makes no difference to `unpadded`. -/
private theorem unpadded_padRight (w : Nat) (s : String) :
    unpadded (padRight w s) = unpadded s := by
  have hspaces : ∀ c ∈ (List.replicate (w - s.length) ' ').reverse, decide (c = ' ') = true := by
    simp
  rw [unpadded, padRight, String.toList_append, String.toList_ofList, List.rdropWhile,
    List.reverse_append, List.dropWhile_append_of_pos hspaces]
  rfl

/-- A text that fits is filled up from what it is without spaces at its end. -/
private theorem toList_padRight (h : s.length ≤ w) :
    (padRight w s).toList = unpadded s ++ List.replicate (w - (unpadded s).length) ' ' := by
  obtain ⟨n, hn⟩ := unpadded_eq s
  have hlength : s.length = (unpadded s).length + n := by
    rw [← String.length_toList, hn, List.length_append, List.length_replicate]
  have hspaces : w - (unpadded s).length = n + (w - s.length) := by omega
  rw [padRight, String.toList_append, String.toList_ofList, hn, hspaces, List.append_assoc,
    List.replicate_append_replicate]

/-- Two texts that fit into a column look the same in it if they differ in the spaces at their ends
only. -/
theorem padRight_eq_iff (hs : s.length ≤ w) (ht : t.length ≤ w) :
    padRight w s = padRight w t ↔ unpadded s = unpadded t := by
  constructor
  · intro h
    rw [← unpadded_padRight w s, h, unpadded_padRight]
  · intro h
    rw [← String.toList_inj, toList_padRight hs, toList_padRight ht, h]

end Text

namespace Connection

/-- The task of a connection as it is shown. -/
def column (c : Connection) : String := Text.padRight 16 c.task

/-- `display` is the process in brackets, the task in its column, an arrow and the endpoint. -/
private theorem toList_display (c : Connection) :
    c.display.toList = ('[' :: Nat.toDigits 10 c.pid.toNat) ++
      ']' :: (c.column.toList ++ (" -> ".toList ++ (endpoint c.destination c.port).toList)) := by
  have hopen : "[".toList = ['['] := rfl
  have hclose : "]".toList = [']'] := rfl
  simp only [display, column, String.toList_append, Nat.toList_repr, List.append_assoc,
    hopen, hclose, List.cons_append, List.nil_append]

/-- The number of the process ends at the first bracket. -/
private theorem cutFirst_display (c : Connection) :
    Text.cutFirst ']' c.display.toList = some ('[' :: Nat.toDigits 10 c.pid.toNat,
      c.column.toList ++ (" -> ".toList ++ (endpoint c.destination c.port).toList)) := by
  have hdigits : ']' ∉ '[' :: Nat.toDigits 10 c.pid.toNat := by
    rw [List.mem_cons, not_or]
    refine ⟨by decide, fun hmem => ?_⟩
    exact absurd (Text.Decimal.isDigit_of_mem hmem) (by decide)
  exact Text.cutFirst_eq_some_iff.mpr ⟨toList_display c, hdigits⟩

/-- Lines with columns of the same width are the same if their parts are. -/
private theorem display_inj {c d : Connection} (h : c.column.length = d.column.length) :
    c.display = d.display ↔
      c.pid = d.pid ∧ c.destination = d.destination ∧ c.port = d.port ∧ c.column = d.column := by
  constructor
  · intro heq
    have hcut := cutFirst_display c
    rw [heq, cutFirst_display d, Option.some.injEq, Prod.mk.injEq] at hcut
    obtain ⟨hpid, hrest⟩ := hcut
    -- The column ends where its width says, whatever stands in it.
    have hwidth : d.column.toList.length = c.column.toList.length := by
      rw [String.length_toList, String.length_toList, h]
    obtain ⟨hcolumn, htail⟩ := List.append_inj hrest hwidth
    have hend := String.toList_inj.mp (List.append_cancel_left htail)
    obtain ⟨hdestination, hport⟩ := endpoint_inj.mp hend
    refine ⟨UInt32.toNat_inj.mp ?_, hdestination.symm, hport.symm,
      (String.toList_inj.mp hcolumn).symm⟩
    rw [← Nat.ofDigitChars_ten_toDigits (n := c.pid.toNat), ← (List.cons.inj hpid).2,
      Nat.ofDigitChars_ten_toDigits]
  · rintro ⟨hpid, hdestination, hport, hcolumn⟩
    rw [← String.toList_inj, toList_display, toList_display, hpid, hcolumn, hdestination, hport]

/-- The column of a task that stands in a record has 16 characters, since its name has no more. -/
private theorem length_column_ofRecord (r : Record) : (ofRecord r).column.length = 16 := by
  rw [column, Text.length_padRight]
  exact Nat.max_eq_left (length_taskName_le r.task)

/-- The lines on two records are the same exactly if they tell of the same process, address and port
and of tasks that differ in the spaces at their ends only. -/
theorem display_eq_iff (r r' : Record) :
    (ofRecord r).display = (ofRecord r').display ↔
      (ofRecord r).pid = (ofRecord r').pid ∧
        (ofRecord r).destination = (ofRecord r').destination ∧
        (ofRecord r).port = (ofRecord r').port ∧
        Text.unpadded (ofRecord r).task = Text.unpadded (ofRecord r').task := by
  have hcolumn : (ofRecord r).column = (ofRecord r').column ↔
      Text.unpadded (ofRecord r).task = Text.unpadded (ofRecord r').task :=
    Text.padRight_eq_iff (length_taskName_le r.task) (length_taskName_le r'.task)
  rw [display_inj ((length_column_ofRecord r).trans (length_column_ofRecord r').symm), hcolumn]

/-- A connection as its line shows it: the task stands in a column of 16 characters, filled up with
spaces, and the line goes on behind this column. -/
def ShownIn (c : Connection) (line : String) : Prop :=
  ∃ column : String, column.length = 16 ∧ Text.unpadded column = Text.unpadded c.task ∧
    line = "[" ++ c.pid.toNat.repr ++ "]" ++ column ++ " -> " ++ c.destination.text ++ ":" ++
      c.port.toNat.repr

/-- The line of a connection shows its task, its address and its port (`ShownIn`). -/
private theorem shownIn_display (r : Record) : ShownIn (ofRecord r) (ofRecord r).display := by
  refine ⟨(ofRecord r).column, length_column_ofRecord r, Text.unpadded_padRight .., ?_⟩
  simp only [display, column, endpoint, String.append_assoc]

/-- Any two samples of 36 bytes decode, each connection is `ShownIn` its `display`, and two
displays are equal exactly if `pid`, `destination`, `port` and the `unpadded` task are. -/
theorem display_unambiguous {raw raw' : List UInt8} (h : raw.length = 36) (h' : raw'.length = 36) :
    ∃ r r', Record.decode? raw = .ok r ∧ Record.decode? raw' = .ok r' ∧
      let c := ofRecord r
      let c' := ofRecord r'
      ShownIn c c.display ∧ ShownIn c' c'.display ∧
      (c.display = c'.display ↔ c.pid = c'.pid ∧ c.destination = c'.destination ∧
        c.port = c'.port ∧ Text.unpadded c.task = Text.unpadded c'.task) := by
  obtain ⟨r, hr⟩ := Record.exists_decode?_iff.mpr h
  obtain ⟨r', hr'⟩ := Record.exists_decode?_iff.mpr h'
  exact ⟨r, r', hr, hr', shownIn_display r, shownIn_display r', display_eq_iff r r'⟩

/-- A sample on a task of process 7. -/
def sampleOfTask (task : List UInt8) : List UInt8 :=
  List.replicate 8 0 ++ [7, 0, 0, 0, 2, 0] ++ task ++ List.replicate (16 - task.length) 0 ++
    [10, 0, 0, 1, 187, 1]

/-- One task is called `]b`, and the other `]b -> 10.0.0.1:4`. -/
theorem display_unambiguous_arrow :
    let raw := sampleOfTask [93, 98]
    let raw' := sampleOfTask [93, 98, 32, 45, 62, 32, 49, 48, 46, 48, 46, 48, 46, 49, 58, 52]
    raw.length = 36 ∧ raw'.length = 36 ∧
      ∃ r r', Record.decode? raw = .ok r ∧ Record.decode? raw' = .ok r' ∧
        let c := ofRecord r
        let c' := ofRecord r'
        ShownIn c c.display ∧ ShownIn c' c'.display ∧
        (c.display = c'.display ↔ c.pid = c'.pid ∧ c.destination = c'.destination ∧
          c.port = c'.port ∧ Text.unpadded c.task = Text.unpadded c'.task) :=
  ⟨rfl, rfl, display_unambiguous rfl rfl⟩

end Connection

end EgressControl
