import EgressControl.Disk
import EgressControl.Hook
import EgressControl.Kernel.Basic

/-! # The files of the kernel

A kernel shows what it has by files and directories of its own: `KernelFacility.path` says where,
and `Kernel.mounted` puts them on a disk.  The directories that lead to something are there
whether the kernel has it or not. -/

namespace EgressControl

/-- Where a kernel shows the number of a tracepoint. -/
def Kernel.tracepointPath (category name : String) : String :=
  Disk.join (Disk.join (Disk.join "/sys/kernel/tracing/events" category) name) "id"

namespace KernelFacility

/-- Everything that a kernel may have or lack. -/
def all : List KernelFacility :=
  [processors, functionProbes, typeInfo, tracepoints, controlGroups]

/-- Where a kernel shows that it has something.  Of the tracepoints there is only one. -/
def path : KernelFacility → String
  | processors => "/sys/devices/system/cpu/online"
  | functionProbes => "/sys/bus/event_source/devices/kprobe/type"
  | typeInfo => "/sys/kernel/btf/vmlinux"
  | tracepoints => Kernel.tracepointPath "syscalls" "sys_enter_connect"
  | controlGroups => AttachTarget.cgroupRoot

/-- What stands there.  Of the files only the list of processors says anything of interest. -/
def node (k : Kernel) : KernelFacility → Disk.Node
  | processors => .file k.processors.toUTF8
  | functionProbes | typeInfo | tracepoints => .file .empty
  | controlGroups => .directory

end KernelFacility

namespace Kernel

/-- A disk with what a kernel shows by one file or directory. -/
def mountOne (k : Kernel) (d : Disk) (f : KernelFacility) : Disk :=
  let names := Disk.components f.path
  let d := d.makeDirectories names.dropLast
  if k.lacksFacility f then d else { d with nodes := d.nodes.insert names (f.node k) }

/-- A disk with all that a kernel shows. -/
def mounted (k : Kernel) (d : Disk) : Disk := KernelFacility.all.foldl k.mountOne d

end Kernel

end EgressControl
