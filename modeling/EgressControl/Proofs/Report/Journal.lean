import EgressControl.Proofs.Report.Export

/-!
# What a log holds

What has been written into a log is in two places: the beginning is in the file, the rest waits in
the buffer (`Journal.Holds`).  On a disk that accepts what is written every write adds its bytes to
this (`append_holds`), and a flush leaves the file with all of them (`onDisk_flush`).
-/

namespace EgressControl

namespace Report.Journal

variable {j : Journal} {d : Disk} {path : String} {content bytes : ByteArray}

/-- The file of a log, up to the place where the log goes on. -/
structure OnDisk (j : Journal) (d : Disk) (path : String) (content : ByteArray) : Prop where
  leads : d.Leads path j.key
  file : d.nodes.get? j.key = some (.file content)
  size : content.size = j.offset

/-- What has been written into a log: what its file holds, and then what waits. -/
def Holds (j : Journal) (d : Disk) (path : String) (bytes : ByteArray) : Prop :=
  ∃ content, j.OnDisk d path content ∧ bytes = content ++ j.pending

/-- A write that went well, after which the log holds these bytes. -/
structure Written.Holds (w : Written) (path : String) (bytes : ByteArray) : Prop where
  failure : w.failure = none
  holds : w.journal.Holds w.disk path bytes

/-- A file takes what is sent to it, at its end. -/
private theorem send_eq (h : j.OnDisk d path content) (bytes : ByteArray) :
    j.send d bytes =
      ⟨{ j with offset := j.offset + bytes.size }, d.write j.key (.file (content ++ bytes)),
        none⟩ := by
  simp only [send, Disk.writeAt, h.file, ← h.size, Disk.overwrite_size]
  rfl

/-- What `send` writes stands behind the content of the file. -/
private theorem OnDisk.send (h : j.OnDisk d path content) (bytes : ByteArray) :
    (j.send d bytes).journal.OnDisk (j.send d bytes).disk path (content ++ bytes) := by
  rw [send_eq h]
  refine ⟨h.leads.write (by simp [h.file]) _, ?_, ?_⟩
  · rw [Disk.get?_write, if_pos rfl]
  · rw [ByteArray.size_append, h.size]

/-- Only the empty bytes are empty. -/
private theorem eq_empty_of_isEmpty (h : bytes.isEmpty = true) : bytes = .empty := by
  simpa [ByteArray.isEmpty, ← ByteArray.size_eq_zero_iff] using h

/-- After a flush all is in the file. -/
theorem onDisk_flush (h : j.Holds d path bytes) :
    (j.flush d).failure = none ∧ (j.flush d).journal.OnDisk (j.flush d).disk path bytes ∧
      (j.flush d).journal.pending = .empty := by
  obtain ⟨content, hdisk, rfl⟩ := h
  unfold flush
  -- With nothing pending nothing is sent.
  split
  · next hempty =>
    have hpending := eq_empty_of_isEmpty hempty
    refine ⟨rfl, ?_, hpending⟩
    rwa [hpending, ByteArray.append_empty]
  · have hsend := hdisk.send j.pending
    rw [send_eq hdisk] at hsend ⊢
    exact ⟨rfl, ⟨hsend.leads, hsend.file, hsend.size⟩, rfl⟩

/-- Bytes that fill the buffer are handed on, which is in order if nothing waits. -/
private theorem place_holds (h : j.Holds d path bytes) (new : ByteArray)
    (hroom : new.size ≥ capacity → j.pending = .empty) :
    (j.place d new).Holds path (bytes ++ new) := by
  obtain ⟨content, hdisk, rfl⟩ := h
  unfold place
  split
  · next hlarge =>
    have hsend := hdisk.send new
    rw [send_eq hdisk] at hsend ⊢
    refine ⟨rfl, content ++ new, hsend, ?_⟩
    -- What is too large for the buffer goes to the file at once, and nothing is pending
    -- before it.
    rw [hroom hlarge, ByteArray.append_empty, ByteArray.append_empty]
  · refine ⟨rfl, content, ⟨hdisk.leads, hdisk.file, hdisk.size⟩, ?_⟩
    rw [ByteArray.append_assoc]

/-- `write` adds its bytes to what the journal `Holds`, whether they are kept or sent. -/
private theorem write_holds (h : j.Holds d path bytes) (new : ByteArray) :
    (j.write d new).Holds path (bytes ++ new) := by
  unfold write
  split
  · -- There is no room, so that the buffer is emptied first.
    obtain ⟨hfailure, hdisk, hpending⟩ := onDisk_flush h
    simp only [hfailure]
    have hflushed : (j.flush d).journal.Holds (j.flush d).disk path bytes :=
      ⟨bytes, hdisk, by rw [hpending, ByteArray.append_empty]⟩
    exact place_holds hflushed new fun _ => hpending
  · next hroom =>
    apply place_holds h
    intro hlarge
    -- Bytes that fill the whole buffer have room in it only if it is empty.
    rw [← ByteArray.size_eq_zero_iff]
    omega

/-- Two texts are encoded one after the other. -/
theorem toUTF8_append (s t : String) : (s ++ t).toUTF8 = s.toUTF8 ++ t.toUTF8 := by
  simp only [String.toUTF8_eq_toByteArray, String.toByteArray_append]

/-- `writeAll` adds the encoding of its pieces to what the journal `Holds`. -/
private theorem writeAll_holds (h : j.Holds d path bytes) (pieces : List String) :
    (j.writeAll d pieces).Holds path (bytes ++ (String.join pieces).toUTF8) := by
  induction pieces generalizing j d bytes with
  | nil =>
    refine ⟨rfl, ?_⟩
    show j.Holds d path (bytes ++ .empty)
    rwa [ByteArray.append_empty]
  | cons piece rest ih =>
    have hwrite := write_holds h piece.toUTF8
    unfold writeAll
    simp only [hwrite.failure]
    rw [String.join_cons, toUTF8_append, ← ByteArray.append_assoc]
    exact ih hwrite.holds

/-- The pieces of a value and a line feed make up its line. -/
theorem join_pieces (v : Json.Value) : String.join (v.pieces ++ ["\n"]) = v.compact ++ "\n" := by
  rw [String.join_append, String.join_cons, String.join_nil, String.append_empty]
  rfl

/-- A value is added as a line. -/
theorem append_holds (h : j.Holds d path bytes) (v : Json.Value) :
    (j.append d v).Holds path (bytes ++ (v.compact ++ "\n").toUTF8) := by
  rw [← join_pieces]
  exact writeAll_holds h (v.pieces ++ ["\n"])

end Report.Journal

end EgressControl
