import EgressControl.Allow.KernelStore
import EgressControl.Allow.Manager
import EgressControl.Collection
import EgressControl.Config
import EgressControl.Engine.Effect
import EgressControl.Kernel.Perf
import EgressControl.Mode.Map

/-! # Setting a run up

Setting up goes through phases that may fail, and what has been acquired is given up when a later
phase fails.  `Setup α` is a piece of this: from the kernel's maps to its effects, the maps
afterwards, and a result or the failure.

When a failure happens before the streams are opened, the map of allowed addresses is given up
before the attachments and the collection last; afterwards the attachments come first. -/

namespace EgressControl

/-- What a run finds around it. -/
structure Host where
  disk : Disk
  kernel : Kernel
  architecture : Architecture := .other
  /-- Reads the bytes of a file as an object file. -/
  parseObject : ByteArray → Except FormatError ObjectFile
  /-- The time, as it is read for the first, second, … time. -/
  clock : Nat → String

namespace Engine

/-- What a piece of setting up comes to. -/
structure Part (α : Type) where
  effects : List Effect
  maps : KernelMaps
  result : Except SetupError α

/-- A piece of setting up. -/
def Setup (α : Type) : Type := KernelMaps → Part α

namespace Setup

/-- Nothing happens. -/
def pure (a : α) : Setup α := fun maps => ⟨[], maps, .ok a⟩

/-- One piece after the other; a failure of the first one is the end. -/
def bind (x : Setup α) (f : α → Setup β) : Setup β := fun maps =>
  let p := x maps
  match p.result with
  | .error e => ⟨p.effects, p.maps, .error e⟩
  | .ok a =>
    let q := f a p.maps
    ⟨p.effects ++ q.effects, q.maps, q.result⟩

instance : Monad Setup where
  pure := Setup.pure
  bind := Setup.bind

/-- Some effects. -/
def emit (es : List Effect) : Setup Unit := fun maps => ⟨es, maps, .ok ()⟩

/-- A result, or a failure. -/
def lift (r : Except SetupError α) : Setup α := fun maps => ⟨[], maps, r⟩

/-- The kernel's maps. -/
def maps : Setup KernelMaps := fun maps => ⟨[], maps, .ok maps⟩

/-- Changes the kernel's maps. -/
def setMaps (maps : KernelMaps) : Setup Unit := fun _ => ⟨[], maps, .ok ()⟩

/-- Changes one map of the kernel. -/
def setMap (m : KernelMap) : Setup Unit := fun maps =>
  ⟨[], maps.insert m.spec.name m, .ok ()⟩

/-- Gives something up if the piece fails. -/
def releasing (es : List Effect) (x : Setup α) : Setup α := fun maps =>
  let p := x maps
  match p.result with
  | .error _ => { p with effects := p.effects ++ es }
  | .ok _ => p

end Setup

/-- What a run holds once the allow list has been filled. -/
structure Context where
  collection : Collection
  attachments : List Attachment
  allow : AllowManager AllowMap
  /-- The number of addresses that were written at the start. -/
  seeded : Nat

/-- What a run holds once it is set up. -/
structure Held where
  context : Context
  opened : Perf.Feed
  closed : Perf.Feed

open Setup (emit lift releasing setMap setMaps)

/-- The rights of the superuser are needed. -/
def checkPrivilege (k : Kernel) : Setup Unit := do
  emit [.checkPrivilege]
  lift (if k.superuser then .ok () else .error .privilege)

/-- Older kernels count maps as locked memory. -/
def liftMemoryLimit (k : Kernel) : Setup Unit := do
  emit [.liftMemoryLimit]
  lift (if k.refusesCall .liftMemoryLimit then .error (.lockedMemory .notPermitted) else .ok ())

/-- Loads the object file. -/
def load (h : Host) (d : Disk) (path : String) : Setup Collection := do
  let (lines, loaded) := Collection.load h.kernel h.parseObject d path
  emit (.readObject path :: Effect.mainLines lines)
  let (collection, maps) ← lift loaded
  setMaps maps
  emit [.acquire .load (.collection path)]
  return collection

/-- Attaches the programs of the collection. -/
def attach (k : Kernel) (d : Disk) (overrides : Table String String) (collection : Collection) :
    Setup (List Attachment) := do
  let batch := Attachment.attachAll (Program.binder k d) overrides collection.programs.entries
  emit (batch.events.flatMap Effect.ofAttachmentEvent)
  lift (batch.result.mapError .attach)

/-- Writes the mode. -/
def setMode (mode : Mode) (collection : Collection) : Setup Unit := do
  emit [.setMode mode]
  let m ← lift (collection.lend (← Setup.maps) Mode.mapName)
  let m ← lift ((mode.write m).mapError (.map Mode.mapName))
  setMap m
  emit [.log .main mode.setLine]

/-- The map of allowed addresses is given up. -/
def releaseAllow : Effect := .release (.map AllowManager.mapName)

/-- Takes the map of allowed addresses out of the collection and writes the first addresses. -/
def fillAllow (suffixes : List String) (seeds : List Ipv4) (collection : Collection) :
    Setup (Collection × AllowManager AllowMap × Nat) := do
  emit [.takeAllow]
  let (m, collection) ← lift (collection.take (← Setup.maps) AllowManager.mapName)
  emit [.acquire .writeSeeds (.map AllowManager.mapName)]
  -- From here on the map is held, even while it is still looked at.
  releasing [releaseAllow] do
    let store ← lift ((AllowMap.ofMap m).mapError (.map AllowManager.mapName))
    let seeding := ({ store, suffixes } : AllowManager AllowMap).seed seeds
    -- The write that failed was tried too.
    emit ((seeds.take (seeding.count + 1)).map .writeSeed ++ Effect.mainLines seeding.logs)
    setMap seeding.manager.store.map
    let seeded ← lift seeding.result
    return (collection, seeding.manager, seeded)

/-- Writes the maps of a collection whose programs are attached. -/
def fill (c : Config) (mode : Mode) (seeds : List Ipv4) (collection : Collection)
    (attachments : List Attachment) : Setup Context := do
  setMode mode collection
  let (collection, allow, seeded) ← fillAllow c.suffixes seeds collection
  return { collection, attachments, allow, seeded }

/-- Attaches the programs of a collection and writes its maps. -/
def equip (c : Config) (h : Host) (d : Disk) (mode : Mode) (seeds : List Ipv4)
    (collection : Collection) : Setup Context := do
  let attachments ← attach h.kernel d c.overrides collection
  releasing (attachments.flatMap Effect.releaseAttachment)
    (fill c mode seeds collection attachments)

/-- Acquires all that is held before the streams. -/
def context (c : Config) (h : Host) (d : Disk) (mode : Mode) (seeds : List Ipv4) :
    Setup Context := do
  checkPrivilege h.kernel
  liftMemoryLimit h.kernel
  let collection ← load h d c.artifact
  releasing [.release (.collection c.artifact)] (equip c h d mode seeds collection)

/-- Opens a stream of samples. -/
def openStream (k : Kernel) (phase : Phase) (name : String) (bufferBytes : UInt64)
    (collection : Collection) : Setup (Perf.Feed × Collection) := do
  emit [.openStream phase name]
  let (m, collection) ← lift (collection.take (← Setup.maps) name)
  let (lines, opened) := Perf.openFeed k name m bufferBytes
  emit (Effect.mainLines lines)
  let feed ← lift (opened.mapError (.stream name))
  emit [.acquire phase (.stream name)]
  return (feed, collection)

/-- The run is to be told when the process gets a signal. -/
def arm (k : Kernel) : Setup Unit := do
  emit [.arm]
  lift (if k.refusesCall .watchSignals then .error (.signal .invalid) else .ok ())

/-- What is done to give up all that is held before the streams. -/
def Context.releases (x : Context) : List Effect :=
  x.attachments.flatMap Effect.releaseAttachment ++
    [releaseAllow, .release (.collection x.collection.path)]

/-- Opens the streams. -/
def streams (c : Config) (k : Kernel) (x : Context) : Setup Held :=
  releasing x.releases do
    let (opened, collection) ← openStream k .openOpened openedName c.bufferBytes x.collection
    releasing [.release (.stream openedName)] do
      let (closed, collection) ← openStream k .openClosed closedName c.bufferBytes collection
      releasing [.release (.stream closedName)] do
        arm k
        return { context := { x with collection }, opened, closed }

/-- Sets a run up. -/
def setUp (c : Config) (h : Host) (d : Disk) (mode : Mode) (seeds : List Ipv4) : Setup Held := do
  let x ← context c h d mode seeds
  streams c h.kernel x

end Engine

end EgressControl
