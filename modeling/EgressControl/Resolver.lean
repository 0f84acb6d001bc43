import EgressControl.Address.Ipv4
import EgressControl.Table

/-! # Names of addresses, addresses of names

A `Resolver` answers from two tables.  An address without a name is given the root name `"."`,
so that there is always a name to show and to compare. -/

namespace EgressControl

/-- Tables of host names and of addresses. -/
structure Resolver where
  hosts : Table String (List Ipv4)
  names : Table Ipv4 (List String)

namespace Resolver

/-- The resolver that knows nothing. -/
def empty : Resolver := ⟨.empty, .empty⟩

/-- The addresses of a host. -/
def addresses (r : Resolver) (host : String) : List Ipv4 := (r.hosts.get? host).getD []

/-- What stands for the name of an address that has none. -/
def unresolved : String := "."

/-- The names of an address, at least one. -/
def namesOf (r : Resolver) (address : Ipv4) : List String :=
  match r.names.get? address with
  | none | some [] => [unresolved]
  | some (n :: ns) => n :: ns

end Resolver

end EgressControl
