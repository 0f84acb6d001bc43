import EgressControl.Attachment
import EgressControl.Kernel.Files
import EgressControl.Text.Split

/-! # Programs of the kernel

The section in which a program stands tells its kind.  A program is attached in steps: its target
is looked for, the program is handed to the kernel, which checks it, and then it is bound. -/

namespace EgressControl

/-- The kinds of programs, as far as they matter here. -/
inductive ProgramKind where
  /-- Called at the entry of a kernel function, or at its return. -/
  | functionProbe
  /-- Called at the entry of a kernel function, which its type information names. -/
  | typedEntry
  /-- Called at the return of a kernel function, which its type information names. -/
  | typedExit
  /-- Called at a tracepoint, which the kernel's type information names. -/
  | typedTracepoint
  | tracepoint
  /-- Called for the packets of a control group. -/
  | cgroupPackets
  /-- Known to the loader, but not attached by this program. -/
  | other
  deriving DecidableEq, Repr

namespace ProgramKind

/-- The hook of a kind. -/
def hook? : ProgramKind → Option HookKind
  | functionProbe => some .functionEntry
  | typedEntry | typedExit | typedTracepoint => some .tracing
  | tracepoint => some .tracepoint
  | cgroupPackets => some .cgroupEgress
  | other => none

/-- Words that name a kind by themselves, and the kind. -/
def byWord : List (String × ProgramKind) :=
  [("kprobe", functionProbe), ("kretprobe", functionProbe), ("fentry", typedEntry),
   ("fentry.s", typedEntry), ("fexit", typedExit), ("fexit.s", typedExit),
   ("tp_btf", typedTracepoint), ("tracepoint", tracepoint), ("tp", tracepoint),
   ("uprobe", other), ("uprobe.s", other), ("uretprobe", other), ("uretprobe.s", other),
   ("socket", other), ("sk_msg", other), ("sockops", other), ("classifier", other),
   ("lirc_mode2", other), ("perf_event", other), ("raw_tp", other), ("raw_tracepoint", other),
   ("lsm", other), ("lsm.s", other), ("freplace", other), ("sk_lookup", other)]

/-- Words behind `cgroup/` that name a kind of their own. -/
def cgroupWords : List String :=
  ["sock", "post_bind4", "post_bind6", "sock_create", "sock_release", "getsockopt",
   "setsockopt", "sysctl", "dev", "bind4", "bind6", "connect4", "connect6", "getpeername4",
   "getpeername6", "getsockname4", "getsockname6", "sendmsg4", "sendmsg6", "recvmsg4",
   "recvmsg6"]

/-- The kind of a program in a section whose name has been cut at its slashes. -/
def ofWords? : List String → Option ProgramKind
  | "xdp" :: rest | "xdp.frags" :: rest =>
    match rest with
    | [] | "cpumap" :: _ | "devmap" :: _ => some other
    | _ => none
  | "sk_skb" :: word :: _ =>
    if word = "stream_parser" || word = "stream_verdict" then some other else none
  | "cgroup_skb" :: word :: _ =>
    if word = "egress" || word = "ingress" then some cgroupPackets else none
  | "cgroup" :: word :: _ =>
    if word = "skb" then some cgroupPackets
    else if cgroupWords.contains word then some other
    else none
  | word :: _ => (byWord.find? (·.1 = word)).map (·.2)
  | [] => none

/-- The kind of a program in a section. -/
def ofSection? (name : String) : Option ProgramKind :=
  ofWords? ((Text.cut (· = '/') name.toList).map String.ofList)

end ProgramKind

/-- A program of the object file. -/
structure Program where
  kind : ProgramKind
  /-- Whether the kernel has taken the program. -/
  loaded : Bool := false
  deriving DecidableEq

namespace Program

/-- What the kernel's check says about a program that it turns down. -/
def verifierLog : String := "R0 !read_ok"

/-- Looks for the target of a program of some kind. -/
def findTarget (k : Kernel) (d : Disk) (kind : ProgramKind) (name : String)
    (target : AttachTarget) : Except AttachError Unit :=
  match kind, target with
  | .functionProbe, .symbol _ | .tracepoint, .tracepoint .. => .ok ()
  | .typedEntry, .typed function | .typedExit, .typed function =>
    if k.lacksFacility .typeInfo then .error (.typeInfo name KernelFacility.typeInfo.path .notFound)
    else if k.functions.contains function then .ok ()
    else .error (.load name (.unknownType function))
  | .typedTracepoint, .typed tracepoint =>
    if k.lacksFacility .typeInfo then .error (.typeInfo name KernelFacility.typeInfo.path .notFound)
    else if k.tracepoints.contains tracepoint then .ok ()
    else .error (.load name (.unknownType ("btf_trace_" ++ tracepoint)))
  | .cgroupPackets, .cgroup path =>
    -- Whatever can be opened is taken for the directory of a control group.
    match (k.mounted d).find path with
    | .error e => .error (.cgroup path e)
    | .ok _ => .ok ()
  | _, _ => .error (.targetMismatch name target.text)

section

variable (k : Kernel) (d : Disk) (name : String) (target : AttachTarget)

/-- Hands the program with a name to the kernel, so that it can be bound to a target. -/
def load (p : Program) : Except ProgramError Unit :=
  -- A program is handed over once, whatever became of it then.
  if p.loaded then .error .alreadyLoaded
  else if k.refusesCallFor name target .loadProgram then .error (.rejected verifierLog .denied)
  else .ok ()

/-- Hands a program to a probe and switches the probe on. -/
def activate : Except ProgramError Unit :=
  if k.refusesCallFor name target .setProgram then
    .error (.call "PERF_EVENT_IOC_SET_BPF" .invalid)
  else if k.refusesCallFor name target .enable then
    .error (.call "PERF_EVENT_IOC_ENABLE" .invalid)
  else .ok ()

/-- Binds a program that the kernel has taken to its target.  The kernel may refuse this for some
programs or targets only: a function, for instance, that it does not know. -/
def link : Except ProgramError Unit :=
  let refused := k.refusesCallFor name target .link
  match target with
  | .symbol _ =>
    if k.lacksFacility .functionProbes then
      .error (.file KernelFacility.functionProbes.path .notFound)
    else if refused then .error (.call "perf_event_open" .notFound)
    else activate k name target
  | .tracepoint category event =>
    let path := Kernel.tracepointPath category event
    match (k.mounted d).read path with
    | .error e => .error (.file path e)
    | .ok _ =>
      if refused then .error (.call "perf_event_open_trace_point" .notFound)
      else activate k name target
  | .cgroup _ => if refused then .error (.call "bpf_link_create" .busy) else .ok ()
  | .typed _ => if refused then .error (.call "bpf_raw_tracepoint_open" .busy) else .ok ()

end

/-- Attaches a program; the second part is the program afterwards. -/
def attach (k : Kernel) (d : Disk) (p : Program) (name : String) (target : AttachTarget) :
    Except AttachError Unit × Program :=
  match findTarget k d p.kind name target with
  | .error e => (.error e, p)
  | .ok () =>
    match load k name target p with
    | .error e => (.error (.load name e), p)
    | .ok () =>
      match link k d name target with
      | .error e => (.error (.link name e), { p with loaded := true })
      | .ok () => (.ok (), { p with loaded := true })

/-- How programs are bound in a kernel. -/
def binder (k : Kernel) (d : Disk) : HookBinder Program := ⟨fun p => p.kind.hook?, attach k d⟩

end Program

end EgressControl
