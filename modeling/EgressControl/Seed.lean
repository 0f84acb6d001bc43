import EgressControl.Address.Ipv6
import EgressControl.Address.Set
import EgressControl.Config
import EgressControl.Disk
import EgressControl.Log
import EgressControl.Resolver
import EgressControl.Text.Blank
import EgressControl.Text.Quoted

/-! # Addresses that are allowed from the start

A run begins with a set of allowed addresses: the nameservers of the system, the hosts and
addresses that the user names, and three fixed addresses without which no machine works.
`Seed.collect` puts the set together, and reports which hosts were looked up in which order. -/

namespace EgressControl

namespace Seed

/-- The addresses that are always allowed. -/
def fixedAddresses : List Ipv4 := [.loopback, .linkLocalMetadata, .cloudMetadata]

/-- The items of a list with commas between them; white space around an item is dropped, and so
are empty items. -/
def items (s : String) : List (List Char) :=
  ((Text.cut (· = ',') s.toList).map Text.trimChars).filter (!·.isEmpty)

/-- Reads a list of host names. -/
def parseHosts (s : String) : List String := (items s).map String.ofList

/-- The line on an item that is no address. -/
def badAddressLine (item : List Char) : Log.Line :=
  .warn ("ignoring invalid IPv4 address in allow list: " ++ .ofList item)

/-- Reads a list of addresses; items that are none are passed over. -/
def parseAddresses (s : String) : List Ipv4 × List Log.Line :=
  ((items s).filterMap Ipv4.parseChars?,
    ((items s).filter fun i => (Ipv4.parseChars? i).isNone).map badAddressLine)

/-- The nameservers that a file declares: host names, and IPv4 addresses. -/
structure Nameservers where
  hosts : List String := []
  addresses : List Ipv4 := []
  deriving DecidableEq

namespace Nameservers

/-- Both lists of one, then both lists of the other. -/
def append (x y : Nameservers) : Nameservers := ⟨x.hosts ++ y.hosts, x.addresses ++ y.addresses⟩

/-- What the word behind `nameserver` declares.  IPv6 addresses do not count. -/
def ofServer (server : List Char) : Nameservers :=
  match Ipv4.parseChars? server with
  | some x => { addresses := [x] }
  | none => if Ipv6.isLiteral server then {} else { hosts := [.ofList server] }

/-- What a line declares: the word behind `nameserver`, if the line begins with this word. -/
def ofLine (line : List Char) : Nameservers :=
  match Text.words line with
  | key :: server :: _ => if key = "nameserver".toList then ofServer server else {}
  | _ => {}

/-- What the lines of a file declare. -/
def ofLines (lines : List (List Char)) : Nameservers :=
  lines.foldr (fun line rest => (ofLine line).append rest) {}

/-- Reads the content of a nameserver file. -/
def parse (content : String) : Nameservers := ofLines (Text.lines content.toList)

/-- The line on a file that could not be read. -/
def unreadableLine (path : String) (e : IoError) : Log.Line :=
  .debug ("no nameservers from " ++ Text.quoted path ++ ": " ++ e.message)

/-- Reads a nameserver file; one that cannot be read declares nothing. -/
def ofFile (d : Disk) (path : String) : Nameservers × List Log.Line :=
  match d.readText path with
  | .ok content => (parse content, [])
  | .error e => ({}, [unreadableLine path e])

/-- Reads a nameserver file, if there is one. -/
def ofSource (d : Disk) : Option String → Nameservers × List Log.Line
  | none => ({}, [])
  | some path => ofFile d path

end Nameservers

/-- The lines on a host that was looked up. -/
def lookupLines (host : String) : List Ipv4 → List Log.Line
  | [] => [.warn ("allowed host " ++ host ++ " did not resolve to any IPv4 address")]
  | xs => xs.map fun x => .debug ("allowed host " ++ host ++ " -> " ++ x.text)

/-- A set of addresses, and how it came about. -/
structure Collection where
  addresses : AddressSet
  /-- The hosts that were looked up, in order. -/
  queries : List String
  logs : List Log.Line

/-- Puts the set of allowed addresses together.  Nameservers are looked up before the hosts that
the user names; a host that has no address is passed over. -/
def collect (sources : SeedSources) (d : Disk) (r : Resolver) : Collection :=
  let (nameservers, fileLines) := Nameservers.ofSource d sources.nameservers
  let hostLines : List Log.Line :=
    if (Text.trimChars sources.hosts.toList).isEmpty then [.debug "no provided allowed hosts"]
    else []
  let (addresses, addressLines) := parseAddresses sources.addresses
  let hosts := nameservers.hosts ++ parseHosts sources.hosts
  let direct := AddressSet.addAll .empty (nameservers.addresses ++ addresses)
  let resolved := hosts.foldl (fun s h => s.addAll (r.addresses h)) direct
  { addresses := resolved.addAll fixedAddresses
    queries := hosts
    logs := fileLines ++ hostLines ++ addressLines ++
      hosts.flatMap fun h => lookupLines h (r.addresses h) }

end Seed

end EgressControl
