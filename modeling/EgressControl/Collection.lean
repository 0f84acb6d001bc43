import EgressControl.Disk
import EgressControl.Error.Setup
import EgressControl.Kernel.Map
import EgressControl.Kernel.Section
import EgressControl.Log
import EgressControl.Text.Quoted

/-! # The object file and what the kernel makes of it

An object file declares programs and maps.  `Collection.load` has the kernel create the maps and
gives the collection of all this; programs reach the kernel when they are attached.  A map is
lent to whoever names it, or taken out of the collection for good. -/

namespace EgressControl

/-- A piece of code of an object file. -/
structure Code where
  name : String
  /-- The name of the section in which the piece stands alone. -/
  place : String
  bytes : List UInt8

/-- What an object file declares. -/
structure ObjectFile where
  code : List Code
  maps : List MapSpec

/-- The maps of the kernel, by name. -/
abbrev KernelMaps := Table String KernelMap

/-- An object file that has been loaded. -/
structure Collection where
  path : String
  /-- The programs, by name.  Of several with one name the last one counts, and a program without
  a name is left out. -/
  programs : Table String Program
  /-- The names of the maps that have not been taken out. -/
  present : List String

namespace Collection

/-- Sorts the pieces of code by the sections in which they stand, and keeps the programs. -/
def classify : List Code → Except FormatError (List (String × Program))
  | [] => .ok []
  | c :: rest =>
    match SectionUse.ofName? c.place with
    | some (.programs kind) =>
      match classify rest with
      | .error e => .error e
      | .ok programs => .ok ((c.name, { kind }) :: programs)
    | some .functions | some .data | some .remarks => classify rest
    -- Code does not define a map, nor is it type information.
    | some .maps => .error (.invalidMap c.name)
    | some .typedMaps => .error .noTypeInfo
    | some .typeInfo => .error .invalidTypeInfo
    | none => .error (.invalidSection c.place)

/-- What is wrong with a licence: it is text of at least one character, and the byte zero ends it
and stands nowhere else. -/
def licenseError? (bytes : List UInt8) : Option FormatError :=
  if bytes.length < 2 then some (.invalidLicense bytes)
  else if bytes.getLast? ≠ some 0 then some (.unendedLicense bytes)
  else if bytes.dropLast.contains 0 then some (.invalidLicense bytes)
  else none

/-- What is wrong with the version of the kernel for which a file is made: it is a word. -/
def versionError? (bytes : List UInt8) : Option FormatError :=
  if bytes.length = 4 then none else some (.invalidVersion bytes)

/-- What is wrong with the sections that are read before all others: the licence, the version and
the type information, in this order.  Of several licences the first one is read. -/
def headError? (code : List Code) : Option FormatError :=
  let read (place : String) (error? : List UInt8 → Option FormatError) : Option FormatError :=
    (code.find? (·.place = place)).bind fun c => error? c.bytes
  read "license" licenseError? <|> read "version" versionError? <|>
    read ".BTF" fun _ => some .invalidTypeInfo

/-- The programs of an object file. -/
def programsOf (o : ObjectFile) : Except FormatError (List (String × Program)) :=
  match headError? o.code with
  | some e => .error e
  | none => classify o.code

/-- Has the kernel create maps. -/
def createMaps (k : Kernel) (maps : KernelMaps) : List MapSpec → Except MapError KernelMaps
  | [] => .ok maps
  | spec :: rest =>
    match KernelMap.create k spec with
    | .error e => .error e
    | .ok m => createMaps k (maps.insert spec.name m) rest

/-- The line on an object file that is about to be loaded. -/
def loadingLine (path : String) : Log.Line :=
  .info ("Loading eBPF object from: " ++ Text.quoted path)

/-- The line on a program that an object file declares. -/
def programLine (name : String) : Log.Line := .debug ("loaded program: " ++ name)

/-- The line on an object file that has been loaded. -/
def loadedLine : Log.Line := .info "eBPF program loaded successfully"

/-- The line on a collection that is given up. -/
def releaseLine (path : String) : Log.Line :=
  .info ("Releasing eBPF collection " ++ Text.quoted path)

/-- What the kernel makes of an object file. -/
def ofObject (k : Kernel) (path : String) (o : ObjectFile) :
    Except ObjectError (Collection × KernelMaps) :=
  match programsOf o with
  | .error e => .error (.format e)
  | .ok programs =>
    match createMaps k .empty o.maps with
    | .error e => .error (.map e)
    | .ok maps =>
      let named := programs.filter fun (name, _) => !name.isEmpty
      .ok (⟨path, .ofList named, o.maps.map (·.name)⟩, maps)

/-- Loads an object file.  `parse` reads the bytes of a file as an object file. -/
def load (k : Kernel) (parse : ByteArray → Except FormatError ObjectFile) (d : Disk)
    (path : String) : List Log.Line × Except SetupError (Collection × KernelMaps) :=
  match d.read path with
  | .error e => ([loadingLine path], .error (.unreadable path e))
  | .ok bytes =>
    match parse bytes with
    | .error e => ([loadingLine path], .error (.load path (.format e)))
    | .ok o =>
      match ofObject k path o with
      | .error e => ([loadingLine path], .error (.ofObjectError path e))
      | .ok (c, maps) =>
        (loadingLine path :: c.programs.keys.map programLine ++ [loadedLine],
          .ok (c, maps))

/-- A map that stays in the collection. -/
def lend (c : Collection) (maps : KernelMaps) (name : String) : Except SetupError KernelMap :=
  if name ∈ c.present then
    match maps.get? name with
    | some m => .ok m
    | none => .error (.missingMap name)
  else .error (.missingMap name)

/-- Takes a map out of the collection. -/
def take (c : Collection) (maps : KernelMaps) (name : String) :
    Except SetupError (KernelMap × Collection) :=
  match c.lend maps name with
  | .error e => .error e
  | .ok m => .ok (m, { c with present := c.present.filter (· ≠ name) })

/-- A program with a name. -/
def program? (c : Collection) (name : String) : Option Program := c.programs.get? name

/-- Puts another program under a name. -/
def setProgram (c : Collection) (name : String) (p : Program) : Collection :=
  { c with programs := c.programs.insert name p }

/-- Attaches the program with a name, if there is one. -/
def attach (c : Collection) (k : Kernel) (d : Disk) (name : String) (target : AttachTarget) :
    Option (Except AttachError Attachment × Collection) :=
  (c.program? name).map fun p =>
    let (r, p) := p.attach k d name target
    (r.map fun _ => ⟨name, target⟩, c.setProgram name p)

end Collection

end EgressControl
