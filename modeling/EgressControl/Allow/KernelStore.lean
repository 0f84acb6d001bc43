import EgressControl.Allow.Store
import EgressControl.Kernel.Map

/-! # The allow list in the kernel

An `AllowMap` is a hash map of words that serves as the store of allowed addresses: the filter
program looks a destination up in it. -/

namespace EgressControl

/-- The kernel's map of allowed addresses. -/
structure AllowMap where
  map : KernelMap

namespace AllowMap

/-- Takes a map as the store of allowed addresses, if it is a hash map of words. -/
def ofMap (m : KernelMap) : Except MapError AllowMap :=
  match m.checkWords KernelMap.hashKinds with
  | .error e => .error e
  | .ok () => .ok ⟨m⟩

/-- Marks an address as allowed. -/
def put (s : AllowMap) (x : Ipv4) : Except MapError AllowMap :=
  match s.map.insert x.key allowPresent with
  | .error e => .error e
  | .ok map => .ok ⟨map⟩

/-- The mark of an address. -/
def lookup (s : AllowMap) (x : Ipv4) : Except MapError (Option UInt32) := s.map.lookup x.key

/-- Every address that has a mark, as far as the kernel tells them. -/
def addresses (s : AllowMap) : List Ipv4 := s.map.keys.map Ipv4.ofKey

instance : AllowStore AllowMap := ⟨put, lookup⟩

end AllowMap

end EgressControl
