import EgressControl.Proofs.Report.ObservationLog

/-!
# A log that cannot be written

On a device that refuses everything the log fills its buffer, of which the disk never takes
anything.  The report is that of a reporter without a log, and the trouble is told when the buffer
overflows and when the log is finished, but not afterwards (`refused_log_noticed`).

An overflow comes in the middle of a line, the beginning of which stays in the buffer.  Therefore
the invariant of a run (`Reporter.Clogged`) knows what waits only as long as all of the lines have
room; afterwards it knows that something waits.
-/

namespace EgressControl

open Report (Journal)

namespace Report.Journal

variable {j : Journal} {d : Disk} {bytes : ByteArray}

/-- Whatever bytes are sent to the file of a log, they are refused. -/
def Refused (j : Journal) (d : Disk) : Prop :=
  ∀ offset bytes, 0 < bytes.size → ∃ e, d.writeAt j.key offset bytes = .error e

/-- What writing so many bytes comes to if nothing leaves the buffer. -/
structure Written.Kept (w : Written) (j : Journal) (d : Disk) (size : Nat) : Prop where
  disk : w.disk = d
  path : w.journal.path = j.path
  key : w.journal.key = j.key
  grows : j.pending.size ≤ w.journal.pending.size
  room : w.journal.pending.size ≤ capacity
  /-- Without a failure all of the bytes are in the buffer. -/
  all : w.failure = none → w.journal.pending.size = j.pending.size + size

/-- Bytes of which there are any are not empty. -/
theorem isEmpty_of_pos (h : 0 < bytes.size) : bytes.isEmpty = false := by
  simpa [ByteArray.isEmpty] using Nat.ne_of_gt h

/-- A device that refuses bytes keeps none of them, and the journal is as before. -/
private theorem send_of_refused (h : j.Refused d) (hbytes : 0 < bytes.size) :
    ∃ e, j.send d bytes = ⟨j, d, some e⟩ := by
  obtain ⟨e, he⟩ := h j.offset bytes hbytes
  exact ⟨e, by rw [send, he]⟩

/-- Where nothing waits there is nothing to be flushed. -/
theorem flush_of_empty (d : Disk) (hpending : j.pending.size = 0) :
    j.flush d = ⟨j, d, none⟩ := by
  simp [flush, ByteArray.isEmpty, hpending]

/-- A buffer that is not empty cannot be emptied. -/
theorem flush_of_refused (h : j.Refused d) (hpending : 0 < j.pending.size) :
    ∃ e, j.flush d = ⟨j, d, some e⟩ := by
  obtain ⟨e, he⟩ := send_of_refused h hpending
  refine ⟨e, ?_⟩
  simp [flush, isEmpty_of_pos hpending, he]

/-- Bytes that have room in the buffer, and do not fill it all by themselves, wait there. -/
private theorem write_of_room (d : Disk) (hroom : j.pending.size + bytes.size ≤ capacity)
    (hsmall : bytes.size < capacity) :
    j.write d bytes = ⟨{ j with pending := j.pending ++ bytes }, d, none⟩ := by
  rw [write, if_neg (Nat.not_lt.mpr hroom), place, if_neg (Nat.not_le.mpr hsmall)]

/-- All other bytes are lost, and those that wait are kept. -/
private theorem write_of_refused (h : j.Refused d) (hj : j.pending.size ≤ capacity)
    (hno : capacity < j.pending.size + bytes.size ∨ capacity ≤ bytes.size) :
    ∃ e, j.write d bytes = ⟨j, d, some e⟩ := by
  have hbytes : 0 < bytes.size := by
    have hpos : 0 < capacity := by decide
    omega
  have hplace : capacity ≤ bytes.size → ∃ e, j.place d bytes = ⟨j, d, some e⟩ := fun hlarge => by
    rw [place, if_pos hlarge]
    exact send_of_refused h hbytes
  rw [write]
  split
  · next hfull =>
    rcases Nat.eq_zero_or_pos j.pending.size with hzero | hpending
    · -- Nothing waits, so that the bytes are more than the buffer can hold.
      rw [flush_of_empty d hzero]
      exact hplace (by omega)
    · obtain ⟨e, he⟩ := flush_of_refused h hpending
      rw [he]
      exact ⟨e, rfl⟩
  · next hroom => exact hplace (hno.resolve_left hroom)

/-- `write` keeps its bytes in the journal if there is room, and gives them up with a failure
otherwise. -/
private theorem kept_write (h : j.Refused d) (hj : j.pending.size ≤ capacity) (bytes : ByteArray) :
    (j.write d bytes).Kept j d bytes.size := by
  by_cases hroom : j.pending.size + bytes.size ≤ capacity ∧ bytes.size < capacity
  · rw [write_of_room d hroom.1 hroom.2]
    exact ⟨rfl, rfl, rfl, by simp, by simpa using hroom.1, fun _ => ByteArray.size_append⟩
  · obtain ⟨e, he⟩ : ∃ e, j.write d bytes = ⟨j, d, some e⟩ := write_of_refused h hj (by omega)
    rw [he]
    exact ⟨rfl, rfl, rfl, Nat.le_refl _, hj, nofun⟩

/-- `writeAll` keeps its pieces in the journal if there is room for all of them, and fails
otherwise. -/
private theorem kept_writeAll (h : j.Refused d) (hj : j.pending.size ≤ capacity)
    (pieces : List String) :
    (j.writeAll d pieces).Kept j d (String.join pieces).utf8ByteSize := by
  induction pieces generalizing j with
  | nil => exact ⟨rfl, rfl, rfl, Nat.le_refl _, hj, fun _ => rfl⟩
  | cons piece rest ih =>
    have hpiece := kept_write h hj piece.toUTF8
    rw [writeAll]
    split
    · next hnone =>
      have hrefused : (j.write d piece.toUTF8).journal.Refused d := by
        rw [Refused, hpiece.key]
        exact h
      have hrest := ih hrefused hpiece.room
      rw [hpiece.disk]
      refine ⟨hrest.disk, hrest.path.trans hpiece.path, hrest.key.trans hpiece.key,
        hpiece.grows.trans hrest.grows, hrest.room, fun hall => ?_⟩
      rw [hrest.all hall, hpiece.all hnone, String.join_cons, String.utf8ByteSize_append,
        Nat.add_assoc]
      rfl
    · next e he =>
      -- The pieces that are left are given up.
      exact ⟨hpiece.disk, hpiece.path, hpiece.key, hpiece.grows, hpiece.room,
        fun hall => absurd (he.symm.trans hall) (Option.some_ne_none e)⟩

/-- Behind something that waits there is no difficulty as long as there is room. -/
private theorem failure_writeAll_of_room (d : Disk) {pieces : List String}
    (hpos : 0 < j.pending.size)
    (hroom : j.pending.size + (String.join pieces).utf8ByteSize ≤ capacity) :
    (j.writeAll d pieces).failure = none := by
  induction pieces generalizing j with
  | nil => rfl
  | cons piece rest ih =>
    rw [String.join_cons, String.utf8ByteSize_append] at hroom
    have hsize : piece.toUTF8.size = piece.utf8ByteSize := rfl
    rw [writeAll, write_of_room d (by omega) (by omega)]
    refine ih ?_ ?_ <;> rw [ByteArray.size_append] <;> omega

/-- The length of the line of a value in bytes. -/
def lineSize (v : Json.Value) : Nat := (v.compact ++ "\n").utf8ByteSize

/-- Every line has at least one byte, its line feed. -/
theorem lineSize_pos (v : Json.Value) : 0 < lineSize v := by
  rw [lineSize, String.utf8ByteSize_append]
  exact Nat.add_pos_right _ (by decide)

/-- `append` keeps its line in the journal if there is room for it, and fails otherwise. -/
theorem kept_append (h : j.Refused d) (hj : j.pending.size ≤ capacity) (v : Json.Value) :
    (j.append d v).Kept j d (lineSize v) := by
  have hkept := kept_writeAll h hj (v.pieces ++ ["\n"])
  rwa [join_pieces] at hkept

section Object

variable {members : List (Option String × Json.Value)}

/-- The log with the brace with which the line of an object begins. -/
def opened (j : Journal) : Journal := { j with pending := j.pending ++ "\x7b".toUTF8 }

/-- To open a line takes one byte. -/
private theorem size_opened (j : Journal) : j.opened.pending.size = j.pending.size + 1 :=
  ByteArray.size_append

/-- There is room for the brace unless the buffer is full. -/
private theorem append_object (d : Disk) (hj : j.pending.size < capacity)
    (members : List (Option String × Json.Value)) : ∃ rest,
    j.append d (.object members) = j.opened.writeAll d rest ∧
    lineSize (.object members) = 1 + (String.join rest).utf8ByteSize := by
  refine ⟨Json.Value.memberPieces members ++ ["\x7d"] ++ ["\n"], ?_, ?_⟩
  · have hwrite : j.write d "\x7b".toUTF8 = ⟨j.opened, d, none⟩ :=
      write_of_room d hj (by decide)
    rw [append, Json.Value.pieces, List.cons_append, List.cons_append, writeAll, hwrite]
  · have hline : (Json.Value.object members).pieces ++ ["\n"] =
        "\x7b" :: (Json.Value.memberPieces members ++ ["\x7d"] ++ ["\n"]) := by
      rw [Json.Value.pieces, List.cons_append, List.cons_append]
    rw [lineSize, ← join_pieces, hline, String.join_cons, String.utf8ByteSize_append]
    rfl

/-- After a line something waits, be it the beginning of this line or what waited before. -/
theorem pending_append (h : j.Refused d) (hj : j.pending.size ≤ capacity) :
    0 < (j.append d (.object members)).journal.pending.size := by
  have hgrows := (kept_append h hj (.object members)).grows
  rcases Nat.eq_zero_or_pos j.pending.size with hzero | hpos
  · have hempty : j.pending.size < capacity := hzero ▸ by decide
    obtain ⟨rest, happend, -⟩ := append_object d hempty members
    have hopened : j.opened.Refused d := h
    have hkept := kept_writeAll hopened (size_opened j ▸ hempty) rest
    rw [happend]
    exact Nat.lt_of_lt_of_le (size_opened j ▸ Nat.succ_pos _) hkept.grows
  · omega

/-- A line is written without trouble if there is room for all of it, and not otherwise. -/
theorem failure_append_iff (h : j.Refused d) (hj : j.pending.size ≤ capacity) :
    (j.append d (.object members)).failure = none ↔
      j.pending.size + lineSize (.object members) ≤ capacity := by
  have hkept := kept_append h hj (.object members)
  constructor
  · intro hnone
    rw [← hkept.all hnone]
    exact hkept.room
  · intro hroom
    have hline := lineSize_pos (.object members)
    -- Any room for the whole line is room for its first byte, which `append_object` asks
    -- for.
    have hfree : j.pending.size < capacity := by omega
    obtain ⟨rest, happend, hsize⟩ := append_object d hfree members
    rw [happend]
    apply failure_writeAll_of_room
    · rw [size_opened]
      exact Nat.succ_pos _
    · rw [size_opened]
      omega

end Object

end Report.Journal

namespace Reporter

/-- The log is open, and whatever is written into it is refused. -/
def Refuses (r : Reporter) : Prop := ∃ j, r.journal = some j ∧ j.Refused r.disk

/-- A log on the full device is refused. -/
private theorem refuses_new {d : Disk} {clock : Nat → String} {r : Reporter} {path : String}
    (h : new (some path) d clock = .ok r) (hdevice : d.find path = .ok .fullDevice) :
    r.Refuses := by
  obtain ⟨key, hcreate, hnode⟩ := Disk.create_of_find_fullDevice hdevice
  simp only [new, hcreate] at h
  obtain rfl := Except.ok.inj h
  refine ⟨_, rfl, fun offset bytes hbytes => ⟨.deviceFull, ?_⟩⟩
  simp [Disk.writeAt, hnode, Journal.isEmpty_of_pos hbytes]

/-- How many bytes the lines of these calls have. -/
def loggedBytes (r : Reporter) (calls : List Call) : Nat :=
  (logText (r.observed calls)).utf8ByteSize

/-- What is written down of a call. -/
def line (r : Reporter) (c : Call) : Json.Value :=
  (observation r.now c.connection c.domains c.allowed).toJson

/-- How many bytes the line of a call has. -/
def lineBytes (r : Reporter) (c : Call) : Nat := Journal.lineSize (r.line c)

variable {r s : Reporter} {path : String} {size : Nat} {j : Journal}

/-- The bytes of some calls are those of the first line, and those of the rest. -/
private theorem loggedBytes_cons (r : Reporter) (c : Call) (calls : List Call) :
    r.loggedBytes (c :: calls) =
      r.lineBytes c + (r.record c.connection c.domains c.allowed).1.loggedBytes calls := by
  rw [loggedBytes, observed, logText_cons, String.utf8ByteSize_append]
  rfl

/-- The bytes of some calls and one more are those of the calls, and those of its line. -/
private theorem loggedBytes_concat (r : Reporter) (calls : List Call) (c : Call) :
    r.loggedBytes (calls ++ [c]) = r.loggedBytes calls + (r.recordAll calls).1.lineBytes c := by
  induction calls generalizing r with
  | nil =>
    rw [List.nil_append, loggedBytes_cons, Nat.add_comm]
    rfl
  | cons first rest ih =>
    rw [List.cons_append, loggedBytes_cons, loggedBytes_cons, ih, Nat.add_assoc]
    rfl

/-- Any calls at all have some bytes. -/
private theorem loggedBytes_pos {calls : List Call} (h : calls ≠ []) : 0 < r.loggedBytes calls := by
  cases calls with
  | nil => contradiction
  | cons c cs =>
    rw [loggedBytes_cons]
    exact Nat.add_pos_left (Journal.lineSize_pos (r.line c)) _

/-! ## The course of a log that is refused -/

/-- The log is open on a device that refuses everything, after lines of so many bytes. -/
structure Clogged (r : Reporter) (path : String) (size : Nat) (j : Journal) : Prop where
  journal : r.journal = some j
  path : j.path = path
  refused : j.Refused r.disk
  room : j.pending.size ≤ Journal.capacity
  /-- As long as there is room for the lines, all of them wait. -/
  all : size ≤ Journal.capacity → j.pending.size = size
  /-- From the first line on something waits. -/
  waits : 0 < size → 0 < j.pending.size

/-- A reporter on a device that `Refuses` bytes begins with nothing in its journal (`Clogged`). -/
private theorem clogged_new {d : Disk} {clock : Nat → String} (h : new (some path) d clock = .ok r)
    (hrefuses : r.Refuses) : ∃ j, r.Clogged path 0 j := by
  obtain ⟨j, hj, hrefused⟩ := hrefuses
  unfold new at h
  dsimp only at h
  split at h
  · next key d' hcreate =>
    obtain rfl := Except.ok.inj h
    obtain rfl := Option.some.inj hj
    exact ⟨_, rfl, rfl, hrefused, Nat.zero_le _, fun _ => rfl, fun hpos => absurd hpos (by decide)⟩
  · simp at h

/-- What a call tells is the trouble of its line, if there is any. -/
private theorem Clogged.told (h : r.Clogged path size j) (c : Call) :
    (r.record c.connection c.domains c.allowed).2 =
      ((j.append r.disk (r.line c)).failure.map (appendLine path)).toList := by
  simp only [record, h.journal, h.path, line]

/-- A line is quiet exactly if there is room for it in the journal. -/
private theorem Clogged.told_eq_nil_iff (h : r.Clogged path size j) (c : Call) :
    (r.record c.connection c.domains c.allowed).2 = [] ↔
      j.pending.size + r.lineBytes c ≤ Journal.capacity := by
  have hfailure : (j.append r.disk (r.line c)).failure = none ↔
      j.pending.size + r.lineBytes c ≤ Journal.capacity :=
    Journal.failure_append_iff h.refused h.room
  rw [h.told, ← hfailure]
  simp

/-- Of a line there is nothing told, or one warning. -/
private theorem Clogged.told_cases (h : r.Clogged path size j) (c : Call) :
    (r.record c.connection c.domains c.allowed).2 = [] ∨
      ∃ e, (r.record c.connection c.domains c.allowed).2 = [appendLine path e] := by
  rw [h.told]
  cases (j.append r.disk (r.line c)).failure with
  | none => exact .inl rfl
  | some e => exact .inr ⟨e, rfl⟩

/-- Nothing is told of a line for which there is room behind all of the lines before. -/
private theorem Clogged.quiet (h : r.Clogged path size j) {c : Call}
    (hroom : size + r.lineBytes c ≤ Journal.capacity) :
    (r.record c.connection c.domains c.allowed).2 = [] := by
  rw [h.told_eq_nil_iff, h.all (by omega)]
  exact hroom

/-- The line by which the bytes exceed `Journal.capacity` for the first time has a warning. -/
private theorem Clogged.overflow (h : r.Clogged path size j) {c : Call}
    (hsize : size ≤ Journal.capacity)
    (hover : Journal.capacity < size + r.lineBytes c) :
    ∃ e, (r.record c.connection c.domains c.allowed).2 = [appendLine path e] := by
  refine (h.told_cases c).resolve_left fun hquiet => ?_
  rw [h.told_eq_nil_iff, h.all hsize] at hquiet
  omega

/-- A call adds its line if there is room for it, and otherwise no more than its beginning. -/
private theorem Clogged.record (h : r.Clogged path size j) (c : Call) :
    ∃ j', (r.record c.connection c.domains c.allowed).1.Clogged path (size + r.lineBytes c) j' := by
  have hkept := Journal.kept_append h.refused h.room (r.line c)
  have hrecord : (r.record c.connection c.domains c.allowed).1.journal =
        some (j.append r.disk (r.line c)).journal ∧
      (r.record c.connection c.domains c.allowed).1.disk = (j.append r.disk (r.line c)).disk := by
    simp only [Reporter.record, h.journal, line, and_self]
  refine ⟨(j.append r.disk (r.line c)).journal, {
    journal := hrecord.1
    path := hkept.path.trans h.path
    refused := ?_
    room := hkept.room
    all := fun hsize => ?_
    waits := fun _ => Journal.pending_append h.refused h.room }⟩
  · rw [hrecord.2, hkept.disk, Journal.Refused, hkept.key]
    exact h.refused
  · -- All lines before have had room, so that what waits is known.
    have hpending := h.all (by omega)
    have hnone := (Journal.failure_append_iff h.refused h.room).mpr (by rw [hpending]; exact hsize)
    rw [hkept.all hnone, hpending]
    rfl

/-- A clogged reporter stays so for any calls, and all their bytes are counted. -/
private theorem Clogged.recordAll (h : r.Clogged path size j) (calls : List Call) :
    ∃ j', (r.recordAll calls).1.Clogged path (size + r.loggedBytes calls) j' := by
  induction calls generalizing r size j with
  | nil => exact ⟨j, h⟩
  | cons c cs ih =>
    obtain ⟨j', hrecord⟩ := h.record c
    rw [loggedBytes_cons, ← Nat.add_assoc]
    exact ih hrecord

/-- A log in which something waits cannot be finished without trouble. -/
private theorem Clogged.clean (h : r.Clogged path size j) (hsize : 0 < size) :
    ∃ e, r.clean.2 = [flushLine path e] := by
  obtain ⟨e, hflush⟩ := Journal.flush_of_refused h.refused (h.waits hsize)
  exact ⟨e, by simp [Reporter.clean, h.journal, hflush, h.path]⟩

/-- An empty log is finished without trouble. -/
private theorem Clogged.clean_unused (h : r.Clogged path 0 j) : r.clean.2 = [] := by
  have hflush := Journal.flush_of_empty r.disk (h.all (Nat.zero_le _))
  simp [Reporter.clean, h.journal, hflush]

/-- Where there is no log, nothing is to be finished. -/
private theorem clean_of_closed (h : r.journal = none) : r.clean = (r, []) := by
  simp only [Reporter.clean, h]

/-! ## The whole run -/

/-- What is told at a call that comes after others. -/
def toldAt (r : Reporter) (before : List Call) (c : Call) : List Log.Line :=
  ((r.recordAll before).1.record c.connection c.domains c.allowed).2

/-- When a reporter `r` tells that its log on `path` is refused.  `s` is a reporter without a log.
-/
structure Notices (r s : Reporter) (path : String) : Prop where
  /-- After any calls, `r` and `s` have the same `report`. -/
  report : ∀ calls, (r.recordAll calls).1.report = (s.recordAll calls).1.report
  /-- A call tells nothing, or `appendLine` with an error. -/
  once : ∀ before c, r.toldAt before c = [] ∨ ∃ e, r.toldAt before c = [appendLine path e]
  /-- While `loggedBytes` is at most `Journal.capacity`, a call tells nothing. -/
  quiet : ∀ before c, r.loggedBytes (before ++ [c]) ≤ Journal.capacity → r.toldAt before c = []
  /-- The call whose line takes `loggedBytes` above `Journal.capacity` tells `appendLine`. -/
  overflow : ∀ before c, r.loggedBytes before ≤ Journal.capacity →
    Journal.capacity < r.loggedBytes (before ++ [c]) →
      ∃ e, r.toldAt before c = [appendLine path e]
  /-- After at least one call, `clean` tells `flushLine`, once. -/
  finish : ∀ calls ≠ [], ∃ e, (r.recordAll calls).1.clean.2 = [flushLine path e]
  /-- Without a call, `clean` tells nothing. -/
  unused : r.clean.2 = []
  /-- After `clean` there is no journal, and nothing more is told, neither by `recordAll` nor by
  another `clean`; the report goes on. -/
  closed : ∀ calls more, ∃ last : Reporter,
    (r.recordAll calls).1.clean.1.recordAll more = (last, []) ∧
    last.journal = none ∧ last.clean = (last, []) ∧
    last.report = (s.recordAll (calls ++ more)).1.report

/-- A reporter whose log `Refuses` every byte reports what one without a log reports.  Nothing is
told as long as all lines fit into `Journal.capacity`; the first line that does not is told, and so
is the end (`Notices`). -/
theorem refused_log_noticed {d : Disk} {clock : Nat → String}
    (hnew : new (some path) d clock = .ok r) (hrefuses : r.Refuses) :
    ∃ s, new none d clock = .ok s ∧ r.Notices s path := by
  -- Every clause but `report` is read off the `Clogged` journal that any calls leave
  -- behind.
  obtain ⟨j, hclogged⟩ := clogged_new hnew hrefuses
  have hrun (calls : List Call) :
      ∃ j', (r.recordAll calls).1.Clogged path (r.loggedBytes calls) j' := by
    -- Counted from no bytes at all.
    have hcalls := hclogged.recordAll calls
    rwa [Nat.zero_add] at hcalls
  refine ⟨_, rfl, ?report, ?once, ?quiet, ?overflow, ?finish, hclogged.clean_unused, ?closed⟩
  case report =>
    intro calls
    rw [report_recordAll, report_recordAll, report_new hnew]
  case once =>
    intro before c
    obtain ⟨_, hbefore⟩ := hrun before
    exact hbefore.told_cases c
  case quiet =>
    intro before c hroom
    obtain ⟨_, hbefore⟩ := hrun before
    exact hbefore.quiet (loggedBytes_concat r before c ▸ hroom)
  case overflow =>
    intro before c hroom hover
    obtain ⟨_, hbefore⟩ := hrun before
    exact hbefore.overflow hroom (loggedBytes_concat r before c ▸ hover)
  case finish =>
    intro calls hcalls
    obtain ⟨_, hlogged⟩ := hrun calls
    exact hlogged.clean (loggedBytes_pos hcalls)
  case closed =>
    intro calls more
    have hclosed := journal_clean (r.recordAll calls).1
    refine ⟨_, recordAll_of_closed hclosed more, hclosed, clean_of_closed hclosed, ?_⟩
    -- What `clean` leaves is recorded into like any other reporter.
    show ((r.recordAll calls).1.clean.1.recordAll more).1.report = _
    rw [report_recordAll, report_clean, report_recordAll, report_recordAll, List.foldl_append,
      report_new hnew]

/-- The device that is always full. -/
theorem refused_log_noticed_fullDevice :
    ∃ r, new (some "/dev/full") .fresh (fun _ => "") = .ok r ∧ r.Refuses ∧
      ∃ s, new none .fresh (fun _ => "") = .ok s ∧ r.Notices s "/dev/full" := by
  have hdevice : Disk.fresh.find "/dev/full" = .ok .fullDevice := by
    -- `find`'s answer has no decidable equality, so a Boolean match is evaluated for it.
    have hfull : (match Disk.fresh.find "/dev/full" with
        | .ok .fullDevice => true
        | _ => false) = true := by decide +kernel
    split at hfull
    · assumption
    · contradiction
  obtain ⟨key, hcreate, -⟩ := Disk.create_of_find_fullDevice hdevice
  have hnew : new (some "/dev/full") .fresh (fun _ => "") =
      .ok ⟨{}, some { path := "/dev/full", key }, .fresh, fun _ => "", 0⟩ := by
    simp only [new, hcreate]
  have hrefuses := refuses_new hnew hdevice
  exact ⟨_, hnew, hrefuses, refused_log_noticed hnew hrefuses⟩

end Reporter

end EgressControl
