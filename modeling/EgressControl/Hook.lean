import EgressControl.Table

/-! # Hooks

Every program of the object file is of a kind, and the kind decides to what it is bound.  A
kernel function is the one with the program's own name, unless the user says otherwise; the
tracepoint and the control group are fixed. -/

namespace EgressControl

/-- The mechanisms by which a program is called. -/
inductive HookKind where
  /-- At the entry of a kernel function. -/
  | functionEntry
  /-- At a kernel function or tracepoint known to the kernel's type information. -/
  | tracing
  /-- At a static tracepoint. -/
  | tracepoint
  /-- For packets that leave a control group. -/
  | cgroupEgress
  deriving DecidableEq, Repr

/-- The name of a kind as the log shows it. -/
def HookKind.name : HookKind → String
  | functionEntry => "Kprobe"
  | tracing => "tracing"
  | tracepoint => "tracepoint"
  | cgroupEgress => "CGroupSKB"

/-- What a program is bound to. -/
inductive AttachTarget where
  /-- A kernel function. -/
  | symbol (name : String)
  /-- A name in the kernel's type information. -/
  | typed (name : String)
  | tracepoint (category name : String)
  /-- A directory of the control group tree. -/
  | cgroup (path : String)
  deriving DecidableEq, Repr

namespace AttachTarget

/-- A target as messages show it. -/
def text : AttachTarget → String
  | symbol name => "symbol " ++ name
  | typed name => "btf " ++ name
  | tracepoint category name => "tracepoint " ++ category ++ ":" ++ name
  | cgroup path => "cgroup " ++ path ++ " (egress)"

/-- The tracepoint of the system call that opens a connection. -/
def connectCall : AttachTarget := tracepoint "syscalls" "sys_enter_connect"

/-- The directory of the control group that holds every task. -/
def cgroupRoot : String := "/sys/fs/cgroup"

/-- The name to which a program is bound: its own, unless it is overridden. -/
def symbolFor (overrides : Table String String) (program : String) : String :=
  (overrides.get? program).getD program

/-- The target of a program of the given kind. -/
def resolve (overrides : Table String String) (kind : HookKind) (program : String) :
    AttachTarget :=
  match kind with
  | .functionEntry => symbol (symbolFor overrides program)
  | .tracing => typed (symbolFor overrides program)
  | .tracepoint => connectCall
  | .cgroupEgress => cgroup cgroupRoot

end AttachTarget

end EgressControl
