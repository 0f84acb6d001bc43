import EgressControl.Proofs.Address.DottedQuad
import EgressControl.Proofs.Disk
import EgressControl.Seed

/-!
# What a nameserver file declares

The servers of a file are the words behind `nameserver`, line by line (`servers`).  Each of them is
the text of an IPv4 address, or of an IPv6 address, or a host name, and `hosts_parse` and
`mem_addresses_parse_iff` say what becomes of it.

A file declares something only if it can be read and is text (`Readable`); all other files are as
good as none (`ofSource_of_unreadable`).
-/

namespace EgressControl.Seed.Nameservers

/-! ## Lines -/

/-- The server that a line declares. -/
def server? (line : List Char) : Option (List Char) :=
  match Text.words line with
  | key :: server :: _ => if key = "nameserver".toList then some server else none
  | _ => none

/-- The servers that a file declares, in the order of its lines. -/
def servers (content : String) : List (List Char) := (Text.lines content.toList).filterMap server?

/-- Whether a server is given by its name. -/
def isHostName (server : List Char) : Bool :=
  (Ipv4.parseChars? server).isNone && !Ipv6.isLiteral server

/-- The host names that a file declares, in the order of its lines. -/
def hostNames (content : String) : List String :=
  ((servers content).filter isHostName).map String.ofList

/-- A line without a server gives nothing, and any other line gives its server. -/
theorem ofLine_eq (line : List Char) : ofLine line = (server? line).elim {} ofServer := by
  unfold ofLine server?
  cases Text.words line with
  | nil => rfl
  | cons key rest =>
    cases rest with
    | nil => rfl
    | cons server rest =>
      dsimp only
      split <;> rfl

/-- A server is an address, or a host name, or left out. -/
private theorem ofServer_eq (server : List Char) :
    ofServer server =
      ⟨if isHostName server then [.ofList server] else [],
        (Ipv4.parseChars? server).toList⟩ := by
  unfold ofServer isHostName
  cases Ipv4.parseChars? server with
  | some x => rfl
  | none => cases Ipv6.isLiteral server <;> rfl

/-- Lines are read one after the other. -/
theorem ofLines_cons (line : List Char) (lines : List (List Char)) :
    ofLines (line :: lines) = (ofLine line).append (ofLines lines) := rfl

/-- The servers of the lines are parted into host names and addresses, each in their order. -/
private theorem ofLines_eq (lines : List (List Char)) :
    ofLines lines =
      ⟨((lines.filterMap server?).filter isHostName).map String.ofList,
        (lines.filterMap server?).filterMap Ipv4.parseChars?⟩ := by
  induction lines with
  | nil => rfl
  | cons line rest ih =>
    rw [ofLines_cons, ih, ofLine_eq]
    cases hserver : server? line with
    | none => rw [List.filterMap_cons_none hserver]; rfl
    | some server =>
      rw [List.filterMap_cons_some hserver, Option.elim_some, ofServer_eq]
      -- The server is put before those that its kind of servers has already.
      cases hhost : isHostName server <;> cases haddress : Ipv4.parseChars? server <;>
        simp [append, hhost, haddress]

/-- The hosts of a file are the `hostNames` in its text. -/
theorem hosts_parse (content : String) : (parse content).hosts = hostNames content := by
  rw [parse, ofLines_eq, hostNames, servers]

/-- The addresses of a file are those of which the text is a server. -/
theorem mem_addresses_parse_iff {content : String} {x : Ipv4} :
    x ∈ (parse content).addresses ↔ x.text.toList ∈ servers content := by
  simp only [parse, ofLines_eq, List.mem_filterMap (f := Ipv4.parseChars?),
    Ipv4.parseChars?_eq_some_iff]
  constructor
  · rintro ⟨server, hserver, rfl⟩
    exact hserver
  · intro hserver
    exact ⟨_, hserver, rfl⟩

/-! ## Files -/

/-- There is a file, it can be read, and it is this text. -/
def Readable (d : Disk) (source : Option String) (text : String) : Prop :=
  ∃ path, source = some path ∧ d.read path = .ok text.toUTF8

/-- A file has one text at most. -/
theorem Readable.text_eq {d : Disk} {source : Option String} {text text' : String}
    (h : Readable d source text) (h' : Readable d source text') : text' = text := by
  obtain ⟨path, rfl, hread⟩ := h
  obtain ⟨_, hpath, hread'⟩ := h'
  obtain rfl := Option.some.inj hpath
  exact String.toByteArray_inj.mp (Except.ok.inj (hread'.symm.trans hread))

/-- A `Readable` file is parsed, and nothing is told. -/
theorem ofSource_of_readable {d : Disk} {source : Option String} {text : String}
    (h : Readable d source text) : ofSource d source = (parse text, []) := by
  obtain ⟨path, rfl, hread⟩ := h
  rw [ofSource, ofFile, Disk.readText_eq_ok_iff.mpr hread]

/-- What cannot be read declares nothing. -/
theorem ofSource_of_unreadable {d : Disk} {source : Option String}
    (h : ∀ text, ¬Readable d source text) : (ofSource d source).1 = {} := by
  cases source with
  | none => rfl
  | some path =>
    rw [ofSource, ofFile]
    cases hread : d.readText path with
    | error e => rfl
    | ok text => exact absurd ⟨path, rfl, Disk.readText_eq_ok_iff.mp hread⟩ (h text)

/-- A file that is missing or cannot be opened, or that is no text. -/
theorem not_readable {d : Disk} {path : String}
    (h : (∃ e, d.read path = .error e) ∨ ∃ bytes, d.read path = .ok bytes ∧ ¬bytes.IsValidUTF8)
    (text : String) : ¬Readable d (some path) text := by
  rintro ⟨_, hpath, hread⟩
  obtain rfl := Option.some.inj hpath
  rcases h with ⟨e, he⟩ | ⟨bytes, hbytes, hinvalid⟩
  · rw [he] at hread
    contradiction
  · rw [hbytes] at hread
    exact hinvalid (Except.ok.inj hread ▸ text.isValidUTF8)

end EgressControl.Seed.Nameservers
