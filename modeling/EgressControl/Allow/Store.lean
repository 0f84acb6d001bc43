import EgressControl.Address.Ipv4
import EgressControl.Error.Kernel
import EgressControl.Table

/-! # Stores for allowed addresses

The addresses that the filter program lets pass stand in a store that the program can see.
`AllowStore` is what the rest of the library needs of such a store; `MemoryStore` is one of
limited capacity, in which some addresses cannot be written. -/

namespace EgressControl

/-- The value that marks an address as allowed. -/
def allowPresent : UInt32 := 1

/-- Stores for allowed addresses.  A write that fails leaves the store as it is. -/
class AllowStore (σ : Type) where
  /-- Marks an address as allowed. -/
  put : σ → Ipv4 → Except MapError σ
  /-- The mark of an address, if it has one. -/
  lookup : σ → Ipv4 → Except MapError (Option UInt32)

/-- A store in memory. -/
structure MemoryStore where
  /-- The marks, under the keys of their addresses. -/
  entries : Table UInt32 UInt32 := .empty
  /-- The number of entries for which there is room. -/
  capacity : Option Nat := none
  /-- Addresses that can be neither written nor looked up. -/
  rejected : List Ipv4 := []

namespace MemoryStore

/-- Whether there is room for an entry under a key. -/
def hasRoom (s : MemoryStore) (key : UInt32) : Bool :=
  s.entries.contains key || s.capacity.all (s.entries.size < ·)

/-- Marks an address as allowed. -/
def put (s : MemoryStore) (x : Ipv4) : Except MapError MemoryStore :=
  if x ∈ s.rejected then .error .elementNotFound
  else if s.hasRoom x.key then .ok { s with entries := s.entries.insert x.key allowPresent }
  else .error (.outOfBounds x.key.toNat (s.capacity.getD 0))

/-- The mark of an address. -/
def lookup (s : MemoryStore) (x : Ipv4) : Except MapError (Option UInt32) :=
  if x ∈ s.rejected then .error .elementNotFound else .ok (s.entries.get? x.key)

instance : AllowStore MemoryStore := ⟨put, lookup⟩

end MemoryStore

end EgressControl
