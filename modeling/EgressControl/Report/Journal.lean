import EgressControl.Disk
import EgressControl.Json.Value

/-! # A buffered log file

A `Journal` is a file that is open for writing.  What is written waits in a buffer of 8192 bytes,
so that a file that cannot be written is noticed late: when the buffer overflows, or when it is
flushed at the end.  A failed write leaves the buffer as it is. -/

namespace EgressControl.Report

/-- A log file. -/
structure Journal where
  /-- The path by which the user named the file. -/
  path : String
  /-- Where the file is on the disk. -/
  key : List String
  /-- The number of bytes that have been handed to the disk. -/
  offset : Nat := 0
  /-- The bytes that wait. -/
  pending : ByteArray := .empty

namespace Journal

/-- The size of the buffer in bytes. -/
def capacity : Nat := 8192

/-- A log file and its disk after a write, and the failure if there was one. -/
structure Written where
  journal : Journal
  disk : Disk
  failure : Option IoError := none

/-- Hands bytes to the disk. -/
def send (j : Journal) (d : Disk) (bytes : ByteArray) : Written :=
  match d.writeAt j.key j.offset bytes with
  | .ok d => ⟨{ j with offset := j.offset + bytes.size }, d, none⟩
  | .error e => ⟨j, d, some e⟩

/-- Empties the buffer. -/
def flush (j : Journal) (d : Disk) : Written :=
  if j.pending.isEmpty then ⟨j, d, none⟩
  else
    let w := j.send d j.pending
    match w.failure with
    | none => { w with journal := { w.journal with pending := .empty } }
    | some _ => w

/-- Puts bytes into the buffer, or hands them on if they fill a whole buffer. -/
def place (j : Journal) (d : Disk) (bytes : ByteArray) : Written :=
  if bytes.size ≥ capacity then j.send d bytes
  else ⟨{ j with pending := j.pending ++ bytes }, d, none⟩

/-- Writes bytes; the buffer is emptied first if there is no room for them. -/
def write (j : Journal) (d : Disk) (bytes : ByteArray) : Written :=
  if j.pending.size + bytes.size > capacity then
    let w := j.flush d
    match w.failure with
    | none => w.journal.place w.disk bytes
    -- The bytes themselves are lost, but those that wait are kept.
    | some _ => w
  else j.place d bytes

/-- Writes one piece of text after the other, up to the first failure. -/
def writeAll (j : Journal) (d : Disk) : List String → Written
  | [] => ⟨j, d, none⟩
  | piece :: rest =>
    let w := j.write d piece.toUTF8
    match w.failure with
    | none => w.journal.writeAll w.disk rest
    | some _ => w

/-- Writes a value and ends the line. -/
def append (j : Journal) (d : Disk) (v : Json.Value) : Written :=
  j.writeAll d (v.pieces ++ ["\n"])

end Journal

end EgressControl.Report
