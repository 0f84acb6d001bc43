import EgressControl.Address.Ipv4
import EgressControl.Record.Basic
import EgressControl.Text.Column
import EgressControl.Text.Utf8

/-! # Connections

A `Connection` is a record with its fields in the terms of this side: the task name as text and
the destination as an address. -/

namespace EgressControl

/-- The task name: the bytes before the first zero, read as text. -/
def taskName (task : Vector UInt8 taskNameLength) : String :=
  .ofList (Text.Utf8.decodeLossy (task.toList.takeWhile (· ≠ 0)))

/-- A task name fits into its column. -/
theorem length_taskName_le (task : Vector UInt8 taskNameLength) :
    (taskName task).length ≤ taskNameLength := by
  rw [taskName, String.length_ofList]
  calc (Text.Utf8.decodeLossy (task.toList.takeWhile (· ≠ 0))).length
      ≤ (task.toList.takeWhile (· ≠ 0)).length := Text.Utf8.length_decodeLossy_le _
    _ ≤ task.toList.length := (List.takeWhile_prefix _).length_le
    _ = taskNameLength := task.length_toList

/-- One connection of a task to an address and a port. -/
structure Connection where
  time : UInt64
  pid : UInt32
  task : String
  destination : Ipv4
  port : UInt16
  deriving DecidableEq

namespace Connection

/-- The connection that a record reports. -/
def ofRecord (r : Record) : Connection where
  time := r.time
  pid := r.pid
  task := taskName r.task
  destination := Ipv4.ofKey r.address
  port := r.port

/-- Address and port, with a colon between them. -/
def endpoint (destination : Ipv4) (port : UInt16) : String :=
  destination.text ++ ":" ++ port.toNat.repr

/-- The line that shows a connection. -/
def display (c : Connection) : String :=
  "[" ++ c.pid.toNat.repr ++ "]" ++ Text.padRight 16 c.task ++ " -> " ++
    endpoint c.destination c.port

end Connection

end EgressControl
