import EgressControl.Proofs.Address.Ipv6
import EgressControl.Proofs.Seed.Collecting

/-!
# Nameservers with IPv6 addresses

An IPv6 nameserver is given by a literal, behind which a zone may stand (`IsIpv6Server`).  One
without a zone is left out.  One with a zone is not taken for an address, however: it is among the
hosts, and the resolver is asked for it.  `ipv6_servers_left_out` says that this is true of those
with a zone and of no others; `zoned_server_looked_up` is such a file.
-/

namespace EgressControl.Seed

namespace Nameservers

/-- An IPv6 nameserver. -/
def IsIpv6Server (server : List Char) : Prop := Ipv6.Spelling server ∨ Ipv6.Zoned server

/-- A server is taken for a host name if it is neither the text of an IPv4 address nor a spelling of
an IPv6 address. -/
private theorem isHostName_iff {server : List Char} :
    isHostName server = true ↔ (∀ x : Ipv4, server ≠ x.text.toList) ∧ ¬Ipv6.Spelling server := by
  rw [isHostName, Bool.and_eq_true, Option.isNone_iff_eq_none, Ipv4.parseChars?_eq_none_iff,
    Bool.not_eq_true', Bool.eq_false_iff, Ne, Ipv6.isLiteral_iff]

/-- The hosts of a file are those servers that are taken for host names. -/
private theorem mem_hosts_parse_iff {content host : String} :
    host ∈ (parse content).hosts ↔
      host.toList ∈ servers content ∧ isHostName host.toList = true := by
  rw [hosts_parse, hostNames, List.mem_map]
  constructor
  · rintro ⟨server, hserver, rfl⟩
    rwa [String.toList_ofList, ← List.mem_filter]
  · intro hserver
    exact ⟨_, List.mem_filter.mpr hserver, String.ofList_toList⟩

/-- Of the IPv6 nameservers those with a zone are hosts. -/
private theorem IsIpv6Server.isHostName_iff {server : List Char} (h : IsIpv6Server server) :
    isHostName server = true ↔ Ipv6.Zoned server := by
  rw [Nameservers.isHostName_iff]
  constructor
  · rintro ⟨-, hspelling⟩
    exact h.resolve_left hspelling
  · intro hzoned
    exact ⟨hzoned.ne_text, hzoned.not_spelling⟩

end Nameservers

open Nameservers

/-- The hosts of a file that are IPv6 nameservers are its servers with a zone. -/
private theorem ipv6_hosts_iff {content host : String} :
    host ∈ (parse content).hosts ∧ IsIpv6Server host.toList ↔
      host.toList ∈ servers content ∧ Ipv6.Zoned host.toList := by
  rw [mem_hosts_parse_iff, and_assoc]
  refine and_congr_right fun _ => ?_
  constructor
  · rintro ⟨hhost, hserver⟩
    exact hserver.isHostName_iff.mp hhost
  · intro hzoned
    have hserver : IsIpv6Server host.toList := .inr hzoned
    exact ⟨hserver.isHostName_iff.mpr hzoned, hserver⟩

/-- What becomes of the IPv6 nameservers in a file. -/
structure LeavesOutLiterals (content : String) : Prop where
  /-- None of them is taken for a host exactly if none of them has a zone. -/
  hosts : (∀ host ∈ (parse content).hosts, ¬IsIpv6Server host.toList) ↔
    ∀ server ∈ servers content, ¬Ipv6.Zoned server
  /-- The resolver is asked for an IPv6 nameserver if it has a zone, or if the user names it as a
  host. -/
  queries : ∀ sources d r host, Readable d sources.nameservers content →
    IsIpv6Server host.toList → (host ∈ (collect sources d r).queries ↔
      host.toList ∈ servers content ∧ Ipv6.Zoned host.toList ∨ host ∈ parseHosts sources.hosts)

/-- A nameserver that is an IPv6 literal is no host and is not looked up, unless it is `Zoned`
(`LeavesOutLiterals`). -/
theorem ipv6_servers_left_out (content : String) : LeavesOutLiterals content where
  hosts := by
    constructor
    · intro hnone server hserver hzoned
      -- Hosts are texts and servers lists of characters; `ipv6_hosts_iff` is about texts.
      have hhost : String.ofList server ∈ (parse content).hosts ∧
          IsIpv6Server (String.ofList server).toList := by
        rw [ipv6_hosts_iff, String.toList_ofList]
        exact ⟨hserver, hzoned⟩
      exact hnone _ hhost.1 hhost.2
    · intro hnone host hhost hserver
      obtain ⟨hmem, hzoned⟩ := ipv6_hosts_iff.mp ⟨hhost, hserver⟩
      exact hnone _ hmem hzoned
  queries sources d r host hread hserver := by
    rw [queries_collect, ofSource_of_readable hread, List.mem_append, mem_hosts_parse_iff,
      hserver.isHostName_iff]

/-- A file with one server, on a link of its own. -/
def linkLocal : Disk := Disk.fresh.put "resolv.conf" (.file "nameserver fe80::1%eth0\n".toUTF8)

/-- It is an IPv6 nameserver, and the resolver is asked for it all the same. -/
theorem zoned_server_looked_up :
    IsIpv6Server "fe80::1%eth0".toList ∧
      (parse "nameserver fe80::1%eth0\n").hosts = ["fe80::1%eth0"] ∧
      (collect ⟨"", "", some "resolv.conf"⟩ linkLocal .empty).queries = ["fe80::1%eth0"] ∧
      ¬∀ content, ∀ host ∈ (parse content).hosts, ¬IsIpv6Server host.toList := by
  have hserver : IsIpv6Server "fe80::1%eth0".toList :=
    .inr ⟨"fe80::1".toList, "eth0".toList, Ipv6.isLiteral_iff.mp (by decide), nofun, rfl⟩
  have hhosts : (parse "nameserver fe80::1%eth0\n").hosts = ["fe80::1%eth0"] := by decide
  refine ⟨hserver, hhosts, by decide +kernel, fun hnone => ?_⟩
  exact hnone _ _ (hhosts ▸ List.mem_singleton_self _) hserver

end EgressControl.Seed
