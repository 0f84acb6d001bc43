import EgressControl.Record.LittleEndian

/-! # Connection records

The filter program in the kernel emits one record of 36 bytes for every connection that a task
opens or closes.  The fields stand without gaps, words in little-endian order:

| bytes   | field                                |
|---------|--------------------------------------|
| 0 – 7   | time in microseconds                 |
| 8 – 11  | process number                       |
| 12 – 13 | address family                       |
| 14 – 29 | task name, filled up with zeros      |
| 30 – 33 | destination address, as a map key    |
| 34 – 35 | destination port                     |

`decode?` accepts exactly the lists of 36 bytes, and `encode` is its inverse. -/

namespace EgressControl

/-- Length of the task name field. -/
def taskNameLength : Nat := 16

/-- The family of IPv4 connections. -/
def ipv4Family : UInt16 := 2

/-- One record as the kernel sends it. -/
structure Record where
  time : UInt64
  pid : UInt32
  family : UInt16
  task : Vector UInt8 taskNameLength
  address : UInt32
  port : UInt16
  deriving DecidableEq

/-- Why a sample is no record. -/
inductive DecodeError where
  /-- The sample does not have the length of a record. -/
  | length (expected actual : Nat)
  deriving DecidableEq, Repr

/-- The wording of the failure. -/
def DecodeError.message : DecodeError → String
  | .length expected actual =>
    "unexpected record length " ++ actual.repr ++ ", expected " ++ expected.repr ++ " bytes"

namespace Record

/-- The number of bytes of a record. -/
def size : Nat := 36

/-- Some bytes from the middle of a sample. -/
def field (raw : List UInt8) (start width : Nat) : List UInt8 := (raw.drop start).take width

/-- Reads a sample as a record. -/
def decode? (raw : List UInt8) : Except DecodeError Record :=
  if h : raw.length = size then
    .ok
      { time := UInt64.ofNat (LittleEndian.decode (field raw 0 8))
        pid := UInt32.ofNat (LittleEndian.decode (field raw 8 4))
        family := UInt16.ofNat (LittleEndian.decode (field raw 12 2))
        task := ⟨(field raw 14 taskNameLength).toArray, by
          simp [field, h, size, taskNameLength]⟩
        address := UInt32.ofNat (LittleEndian.decode (field raw 30 4))
        port := UInt16.ofNat (LittleEndian.decode (field raw 34 2)) }
  else .error (.length size raw.length)

/-- The bytes of a record. -/
def encode (r : Record) : List UInt8 :=
  LittleEndian.encode 8 r.time.toNat ++ LittleEndian.encode 4 r.pid.toNat ++
    LittleEndian.encode 2 r.family.toNat ++ r.task.toList ++
    LittleEndian.encode 4 r.address.toNat ++ LittleEndian.encode 2 r.port.toNat

/-- `encode` makes `size` bytes of every record. -/
theorem length_encode (r : Record) : r.encode.length = size := by
  simp [encode, size]
  rfl

end Record

end EgressControl
