import EgressControl.Kernel.Basic
import EgressControl.Table

/-! # Maps of the kernel

A map holds values under keys, and the filter program sees it too.  This side reads and writes
maps with keys and values of four bytes: arrays (`writeArray`) and hash maps (`insert`, `lookup`,
`keys`).  A map of another kind or with other sizes is turned down before it is touched.

What a write comes to is for the kernel to say: `update` fails if the kernel refuses the call or
rejects the key, and if there is no room (`hasRoom`) and none is made (`evict?`).  A full map that
keeps those entries that were used last may give some up for any write. -/

namespace EgressControl

/-- The kinds of maps. -/
inductive MapKind where
  | hash
  | array
  | perf
  | percpuHash
  | percpuArray
  | lruHash
  | queue
  | ringBuffer
  deriving DecidableEq, Repr

/-- The number of a kind. -/
def MapKind.code : MapKind → Nat
  | hash => 1
  | array => 2
  | perf => 4
  | percpuHash => 5
  | percpuArray => 6
  | lruHash => 9
  | queue => 22
  | ringBuffer => 27

/-- A map as the object file declares it. -/
structure MapSpec where
  name : String
  kind : MapKind
  keySize : Nat
  valueSize : Nat
  maxEntries : Nat
  deriving DecidableEq

/-- How a kernel deals with a map, other than by doing each call as long as there is room for a new
key among `maxEntries` keys. -/
structure MapFaults where
  /-- Whether every write fails. -/
  update : Bool := false
  /-- Whether every look-up fails. -/
  lookup : Bool := false
  /-- Whether the keys cannot be listed. -/
  next : Bool := false
  /-- The keys whose writes fail. -/
  rejected : List UInt32 := []
  /-- The keys that are given up at once, each time when the map is written while it is full, if it
  is of the kind `lruHash`. -/
  victims : List (List UInt32) := []
  /-- Whether a map of the kind `perf` has room for the keys below `maxEntries`, and for no
  others. -/
  indexesPerf : Bool := false
  deriving DecidableEq

/-- A map. -/
structure KernelMap where
  spec : MapSpec
  entries : Table UInt32 UInt32 := .empty
  faults : MapFaults := {}

namespace KernelMap

/-- The size of a word, the only size of keys and values with which this side works. -/
def wordSize : Nat := 4

/-- The entries with which a map begins: an array holds zeros, every other map is empty. -/
def initialEntries (spec : MapSpec) : Table UInt32 UInt32 :=
  match spec.kind with
  | .array => .ofList ((List.range spec.maxEntries).map fun i => (.ofNat i, 0))
  | _ => .empty

/-- How a kernel deals with the map that has the given name. -/
def faultsOf (k : Kernel) (name : String) : MapFaults where
  update := k.refusesCall (.updateMap (Kernel.keptName name))
  lookup := k.refusesCall (.lookupMap (Kernel.keptName name))
  next := k.refusesCall (.nextKey (Kernel.keptName name))
  rejected := k.rejectedKeys name
  victims := k.victims name
  indexesPerf := k.indexesPerf

/-- A map that a kernel has just made.  A perf map that does not say otherwise has an entry for
each processor that the machine may have. -/
def ofSpec (spec : MapSpec) (k : Kernel := {}) : KernelMap where
  spec :=
    if spec.kind = .perf ∧ spec.maxEntries = 0 then
      { spec with maxEntries := k.possibleProcessors }
    else spec
  entries := initialEntries spec
  faults := faultsOf k spec.name

/-- Makes a map. -/
def create (k : Kernel) (spec : MapSpec) : Except MapError KernelMap :=
  if k.refusesCall (.createMap (Kernel.keptName spec.name)) then
    .error (.create spec.name (-1) .outOfMemory)
  else .ok (ofSpec spec k)

/-- Whether a map is of one of the given kinds. -/
def checkKind (m : KernelMap) (kinds : List MapKind) : Except MapError Unit :=
  if m.spec.kind ∈ kinds then .ok () else .error (.invalidType m.spec.kind.code)

/-- Whether keys and values are words. -/
def checkSizes (m : KernelMap) : Except MapError Unit :=
  if m.spec.keySize ≠ wordSize then .error (.invalidKeySize wordSize m.spec.keySize)
  else if m.spec.valueSize ≠ wordSize then .error (.invalidValueSize wordSize m.spec.valueSize)
  else .ok ()

/-- Whether a map is one of the given kinds with words as keys and values. -/
def checkWords (m : KernelMap) (kinds : List MapKind) : Except MapError Unit :=
  match m.checkKind kinds with
  | .error e => .error e
  | .ok () => m.checkSizes

/-- The kinds that are hash maps. -/
def hashKinds : List MapKind := [.hash, .lruHash]

/-- Whether there is room for an entry under a key: the key is there already, or it may be added. -/
def hasRoom (m : KernelMap) (key : UInt32) : Bool :=
  m.entries.contains key ||
    if m.spec.kind = .perf ∧ m.faults.indexesPerf then key.toNat < m.spec.maxEntries
    else m.entries.size < m.spec.maxEntries

/-- A full map without the next of its victims, if there is room for an entry under a key then.
Only maps that keep those entries that were used last give entries up. -/
def evict? (m : KernelMap) (key : UInt32) : Option KernelMap :=
  match m.spec.kind, m.faults.victims with
  | .lruHash, keys :: rest =>
    let left :=
      { m with
        entries := keys.foldl Table.erase m.entries
        faults := { m.faults with victims := rest } }
    if m.spec.maxEntries ≤ m.entries.size ∧ left.hasRoom key then some left else none
  | _, _ => none

/-- The map with room for an entry under a key: without its next victims, or as it is. -/
def roomFor? (m : KernelMap) (key : UInt32) : Option KernelMap :=
  match m.evict? key with
  | some left => some left
  | none => if m.hasRoom key then some m else none

/-- Writes an entry for which there is room. -/
def put (m : KernelMap) (key value : UInt32) : KernelMap :=
  { m with entries := m.entries.insert key value }

/-- Writes an entry.  A map without room takes no new key, unless it gives other entries up. -/
def update (m : KernelMap) (key value : UInt32) : Except IoError KernelMap :=
  if m.faults.update || m.faults.rejected.contains key then .error .notPermitted
  else
    match m.roomFor? key with
    | some room => .ok (room.put key value)
    | none => .error .tooBig

/-- The failure of a write. -/
def updateError (e : IoError) : MapError := .call "bpf_map_update_elem" e

/-- The failure of a look-up. -/
def lookupError (e : IoError) : MapError := .call "bpf_map_lookup_elem" e

/-- Writes an entry of a hash map of words. -/
def insert (m : KernelMap) (key value : UInt32) : Except MapError KernelMap :=
  match m.update key value with
  | .ok m => .ok m
  | .error e => .error (updateError e)

/-- Writes an entry of an array of words. -/
def writeArray (m : KernelMap) (index value : UInt32) : Except MapError KernelMap :=
  if m.spec.maxEntries ≤ index.toNat then .error (.outOfBounds index.toNat m.spec.maxEntries)
  else m.insert index value

/-- The value under a key of a hash map of words. -/
def lookup (m : KernelMap) (key : UInt32) : Except MapError (Option UInt32) :=
  if m.faults.lookup then .error (lookupError .notPermitted) else .ok (m.entries.get? key)

/-- The keys of a hash map, as far as the kernel tells them. -/
def keys (m : KernelMap) : List UInt32 := if m.faults.next then [] else m.entries.keys

end KernelMap

end EgressControl
