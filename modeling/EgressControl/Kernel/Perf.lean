import EgressControl.Error.Setup
import EgressControl.Kernel.Map
import EgressControl.Kernel.Processors
import EgressControl.Log

/-! # Perf buffers

The kernel hands samples over in ring buffers, one for each processor and map.  `pageCount` is
the size of a buffer in pages, `openFeed` sets the buffers of a map up, and `batches` is what
comes out of a buffer, read by read. -/

namespace EgressControl.Perf

/-- The number of bytes of a page. -/
def pageSize : UInt64 := 4096

/-- The least power of two that is not less than a number. -/
def powerOfTwoFrom (n : Nat) : Nat := if n ≤ 1 then 1 else 1 <<< ((n - 1).log2 + 1)

/-- The number of whole pages that hold so many bytes, and one page at least. -/
def pagesFor (bytes : UInt64) : UInt64 :=
  let whole := bytes / pageSize
  max (if bytes % pageSize = 0 then whole else whole + 1) 1

/-- The number of pages of a buffer for which so many bytes are asked: enough pages for them, at
least one, and a power of two. -/
def pageCount (bytes : UInt64) : UInt64 := .ofNat (powerOfTwoFrom (pagesFor bytes).toNat)

/-- The most samples that one read takes out of a buffer. -/
def readBatch : Nat := 16

/-- The number of bytes that a record takes in a buffer.  The bytes of a sample stand behind
their length, and both together are filled up to a multiple of eight. -/
def recordBytes : BufferRecord → Nat
  | .sample raw => 8 + (4 + raw.length + 7) / 8 * 8
  | .lost _ => 24
  | .other => 16

/-- The records that fit into the room that is left; from the first one that does not fit, they
are gone. -/
def fitting (room : Nat) : List BufferRecord → List BufferRecord
  | [] => []
  | r :: rest => if recordBytes r ≤ room then r :: fitting (room - recordBytes r) rest else []

/-- What one read takes out of a buffer. -/
structure Batch where
  samples : List (List UInt8) := []
  /-- The number of samples that were lost. -/
  lost : Nat := 0
  deriving DecidableEq

/-- A batch with one more record; it stands before the others. -/
def Batch.add (b : Batch) : BufferRecord → Batch
  | .sample raw => { b with samples := b.samples ++ [raw] }
  | .lost count => { b with lost := b.lost + count }
  | .other => b

/-- Reads the records of a buffer, batch by batch, when the given batch has been read so far. -/
def batchesFrom (b : Batch) : List BufferRecord → List Batch
  | [] => [b]
  | r :: rest =>
    -- The read stops as soon as it has its samples, before it looks at the next record.
    if b.samples.length < readBatch then batchesFrom (b.add r) rest
    else b :: batchesFrom (({} : Batch).add r) rest

/-- The batches that come out of a buffer; reads that find nothing do not count. -/
def batches (records : List BufferRecord) : List Batch :=
  (batchesFrom {} records).filter fun b => !b.samples.isEmpty || b.lost > 0

/-- The line on samples that were lost. -/
def lostLine (name : String) (cpu count : Nat) : Log.Line :=
  .warn (name ++ ": lost " ++ count.repr ++ " sample(s) on CPU " ++ cpu.repr)

/-- The line on a task that reads no more, because its stream has been closed. -/
def stoppedLine (name : String) (cpu : Nat) : Log.Line :=
  .debug (name ++ ": reader for CPU " ++ cpu.repr ++ " stopped")

/-- The line on a stream that is about to be opened. -/
def openingLine (name : String) (cpus : Nat) (pages : UInt64) : Log.Line :=
  .info ("Opening " ++ name ++ " on " ++ cpus.repr ++ " CPUs (" ++ pages.toNat.repr ++
    " page(s) each)")

/-- The most bytes that the kernel maps into memory at once. -/
def largestMapping : Nat := 0x800000000

/-- Sets the buffer of one processor up.  Its pages have to be a power of two, and a page that
tells where the records are stands before them. -/
def openBuffer (k : Kernel) (m : KernelMap) (pages : UInt64) (cpu : Nat) :
    Except PerfError KernelMap :=
  if ¬pages.toNat.isPowerOfTwo then .error (.pageCount pages.toNat)
  -- The buffer is made, mapped and switched on before the map learns of it.
  else if k.refusesCall .openPerf then .error (.open .tooManyFiles)
  else if k.refusesCall .mapBuffer then .error (.mmap .notPermitted)
  else if (pages.toNat + 1) * pageSize.toNat > largestMapping then .error (.mmap .outOfMemory)
  else if k.refusesCall .enable then .error (.enable .invalid)
  else
    match m.update (.ofNat cpu) 0 with
    | .ok m => .ok m
    | .error e => .error (.io e)

/-- Sets the buffers of processors up, one after the other. -/
def openBuffers (k : Kernel) (m : KernelMap) (pages : UInt64) :
    List Nat → Except PerfError KernelMap
  | [] => .ok m
  | cpu :: cpus =>
    match openBuffer k m pages cpu with
    | .error e => .error e
    | .ok m => openBuffers k m pages cpus

/-- A stream that has been opened: the processors whose buffers feed it, and the size of the
buffers in pages. -/
structure Feed where
  name : String
  cpus : List Nat
  pages : UInt64
  deriving DecidableEq

/-- Opens the stream of a map: the lines about it, and the stream or the failure. -/
def openFeed (k : Kernel) (name : String) (m : KernelMap) (bufferBytes : UInt64) :
    List Log.Line × Except PerfError Feed :=
  match m.checkKind [.perf] with
  | .error e => ([], .error (.map e))
  | .ok () =>
    match Processors.inUse k with
    | .error e => ([], .error e)
    | .ok cpus =>
      let pages := pageCount bufferBytes
      let line := openingLine name cpus.length pages
      match openBuffers k m pages cpus with
      | .error e => ([line], .error e)
      | .ok _ => ([line], .ok ⟨name, cpus, pages⟩)

/-- The batches that come out of a buffer in which samples wait. -/
def Feed.batches (k : Kernel) (f : Feed) : List Batch :=
  Perf.batches (fitting (f.pages.toNat * pageSize.toNat) (k.waiting f.name))

end EgressControl.Perf
