import EgressControl.CommandLine.Execution

/-! # The program

Everything is decided by `CommandLine.execute`.  Here the files that the arguments name are read
before, and what has been written is put back afterwards.  The process itself has no way into the
kernel, so that a run ends where the rights of the superuser are asked for. -/

namespace EgressControl.Main

/-- Takes the nodes on the way to a path into a disk. -/
def lookAt (d : Disk) (path : String) : IO Disk := do
  let here ← IO.currentDir
  let absolute := path.startsWith "/"
  let mut d := d
  for b in Disk.beginnings (Disk.components path) do
    let name := (if absolute then "/" else "") ++ "/".intercalate b
    let place := here / name
    let key := if absolute then b else d.home ++ b
    if ← place.isDir then
      d := { d with nodes := d.nodes.insert key .directory }
    else if ← place.pathExists then
      try
        let content ← IO.FS.readBinFile place
        d := { d with nodes := d.nodes.insert key (.file content) }
      catch _ => pure ()
  return d

/-- Puts the file with a path back. -/
def putBack (d : Disk) (path : String) : IO Unit :=
  match d.read path with
  | .ok content => do IO.FS.writeBinFile ((← IO.currentDir) / path) content
  | .error _ => pure ()

/-- The files that are read, and those that are written. -/
def files (args : List String) : List String × List String :=
  match CommandLine.Command.parse args with
  | .error _ => ([], [])
  | .ok o =>
    match o.toConfig with
    | .error _ => ([], [])
    | .ok c => (c.artifact :: c.seed.nameservers.toList, c.reportFile.toList)

end EgressControl.Main

open EgressControl in
/-- Carries the arguments out, prints what they come to, and ends with their code. -/
def main (args : List String) : IO UInt32 := do
  let (sources, targets) := Main.files args
  let d ← (sources ++ targets).foldlM Main.lookAt Disk.fresh
  let host : Host :=
    { disk := d
      kernel := { superuser := false }
      parseObject := fun _ => .error .container
      clock := fun _ => "1970-01-01T00:00:00.000000000+00:00" }
  let x := CommandLine.execute args host .empty "SIGTERM"
  IO.print x.printed
  for line in x.lines do IO.eprint (String.ofList line.written)
  for line in x.failure do IO.eprintln line
  for path in targets do Main.putBack x.disk path
  return x.code
