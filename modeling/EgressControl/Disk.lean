import EgressControl.Error.System
import EgressControl.Table
import EgressControl.Text.Split

/-! # Files

A `Disk` is a tree of directories and files, given by the paths of its nodes, with one device
on which nothing can be written.  `create` makes an empty file or empties an old one, `writeAt`
puts bytes at an offset, `read` gives the content of a file; each fails in the words of the
system. -/

namespace EgressControl

/-- What a path names. -/
inductive Disk.Node where
  | file (content : ByteArray)
  | directory
  /-- A device that never has room. -/
  | fullDevice

/-- A tree of files. -/
structure Disk where
  /-- The nodes, by the components of their paths from the root. -/
  nodes : Table (List String) Disk.Node
  /-- The directory in which relative paths begin. -/
  home : List String

namespace Disk

/-- The longest name of a node in bytes. -/
def maxNameBytes : Nat := 255

/-- The length in bytes from which a path is too long. -/
def pathBytesLimit : Nat := 4096

/-- The directory in which relative paths begin on a fresh disk. -/
def freshHome : List String := ["tmp", "work"]

/-- The disk on which nothing has been written yet. -/
def fresh : Disk where
  nodes := .ofList
    [([], .directory), (["dev"], .directory), (["dev", "full"], .fullDevice),
     (["tmp"], .directory), (freshHome, .directory)]
  home := freshHome

/-- The names in a path, from its beginning to its end. -/
def components (path : String) : List String :=
  ((Text.cut (· = '/') path.toList).filter (!·.isEmpty)).map String.ofList

/-- A path that goes on from another one; a path from the root stands for itself. -/
def join (base path : String) : String :=
  if path.startsWith "/" then path
  else if base.isEmpty || base.endsWith "/" then base ++ path
  else base ++ "/" ++ path

/-- The directory that is reached from another one by the components of a path. -/
def enter (d : Disk) (dir : List String) : List String → Except IoError (List String)
  | [] => .ok dir
  | c :: rest =>
    if c = "." then d.enter dir rest
    else if c = ".." then d.enter dir.dropLast rest
    else if c.utf8ByteSize > maxNameBytes then .error .nameTooLong
    else
      match d.nodes.get? (dir ++ [c]) with
      | some .directory => d.enter (dir ++ [c]) rest
      | some _ => .error .notDirectory
      | none => .error .notFound

/-- Where a path leads: a directory, a name in it unless the directory itself is meant, and
whether a slash follows the name. -/
structure Place where
  directory : List String
  name : Option String
  slash : Bool

/-- Follows a path up to its last component. -/
def locate (d : Disk) (path : String) : Except IoError Place :=
  if path.toList.contains '\x00' then .error .zeroInName
  else if path.isEmpty then .error .notFound
  else if path.utf8ByteSize ≥ pathBytesLimit then .error .nameTooLong
  else
    let names := components path
    let start := if path.startsWith "/" then [] else d.home
    match names.getLast? with
    -- Nothing but slashes: the root itself.
    | none => .ok ⟨[], none, true⟩
    | some c =>
      -- A last component without a name of its own leads to a directory.
      if c = "." || c = ".." then
        (d.enter start names).map fun dir => ⟨dir, none, true⟩
      else
        (d.enter start names.dropLast).map fun dir => ⟨dir, some c, path.endsWith "/"⟩

/-- Opens a file for writing, empty; the result is its path from the root. -/
def create (d : Disk) (path : String) : Except IoError (List String × Disk) :=
  match d.locate path with
  | .error e => .error e
  | .ok ⟨_, none, _⟩ => .error .isDirectory
  | .ok ⟨dir, some name, slash⟩ =>
    let key := dir ++ [name]
    -- What is to be created under a name with a slash behind it can only be a directory.
    if slash then .error .isDirectory
    else if name.utf8ByteSize > maxNameBytes then .error .nameTooLong
    else
      match d.nodes.get? key with
      | some .directory => .error .isDirectory
      | some .fullDevice => .ok (key, d)
      | some (.file _) | none =>
        .ok (key, { d with nodes := d.nodes.insert key (.file .empty) })

/-- The content of a file after bytes have been put at an offset; a gap is filled with zeros. -/
def overwrite (content : ByteArray) (offset : Nat) (bytes : ByteArray) : ByteArray :=
  content.extract 0 offset ++ ⟨Array.replicate (offset - content.size) 0⟩ ++ bytes ++
    content.extract (offset + bytes.size) content.size

/-- Bytes at the end of the content are appended. -/
theorem overwrite_size (content bytes : ByteArray) :
    overwrite content content.size bytes = content ++ bytes := by
  have hrest : content.extract (content.size + bytes.size) content.size = .empty := by
    rw [ByteArray.extract_eq_empty_iff]
    omega
  have hgap : (⟨Array.replicate (content.size - content.size) 0⟩ : ByteArray) = .empty := by
    rw [Nat.sub_self]
    rfl
  rw [overwrite, hrest, hgap, ByteArray.extract_zero_size, ByteArray.append_empty,
    ByteArray.append_empty]

/-- Puts bytes at an offset of a file that has been opened for writing. -/
def writeAt (d : Disk) (key : List String) (offset : Nat) (bytes : ByteArray) :
    Except IoError Disk :=
  match d.nodes.get? key with
  | some (.file content) =>
    .ok { d with nodes := d.nodes.insert key (.file (overwrite content offset bytes)) }
  | some .fullDevice => if bytes.isEmpty then .ok d else .error .deviceFull
  | some .directory => .error .isDirectory
  | none => .error .notFound

/-- What a path names. -/
def find (d : Disk) (path : String) : Except IoError Node :=
  match d.locate path with
  | .error e => .error e
  | .ok ⟨_, none, _⟩ => .ok .directory
  | .ok ⟨dir, some name, slash⟩ =>
    if name.utf8ByteSize > maxNameBytes then .error .nameTooLong
    else
      match d.nodes.get? (dir ++ [name]) with
      | none => .error .notFound
      | some .directory => .ok .directory
      -- Only a directory may have a slash behind its name.
      | some node => if slash then .error .notDirectory else .ok node

/-- The content of a file.  The device is endless, so that it does not fit into memory. -/
def read (d : Disk) (path : String) : Except IoError ByteArray :=
  match d.find path with
  | .error e => .error e
  | .ok .directory => .error .isDirectory
  | .ok .fullDevice => .error .outOfMemory
  | .ok (.file content) => .ok content

/-- The content of a file as text. -/
def readText (d : Disk) (path : String) : Except IoError String :=
  match d.read path with
  | .error e => .error e
  | .ok content =>
    match String.fromUTF8? content with
    | some text => .ok text
    | none => .error .notText

/-- Every beginning of a list, shortest first, without the empty one. -/
def beginnings : List String → List (List String)
  | [] => []
  | c :: cs => [c] :: (beginnings cs).map (c :: ·)

/-- The disk with a directory, and with all that lead to it from the root. -/
def makeDirectories (d : Disk) (names : List String) : Disk :=
  { d with nodes := (beginnings names).foldl (fun t dir => t.insert dir .directory) d.nodes }

/-- The disk with a file of the given content, or with a directory, in the home directory. -/
def put (d : Disk) (name : String) (node : Node) : Disk :=
  { d with nodes := d.nodes.insert (d.home ++ [name]) node }

end Disk

end EgressControl
