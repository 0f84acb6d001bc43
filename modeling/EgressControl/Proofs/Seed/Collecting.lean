import EgressControl.Proofs.Seed.Items
import EgressControl.Proofs.Seed.Nameservers

/-!
# Which addresses are allowed from the start

The set of addresses is put together from what is known without the resolver
(`Collection.unresolved`), and then one host after the other is looked up (`Collection.lookUp`).
`collect_eq_foldl` says that this is how `collect` works; what one look-up does to the addresses, to
the queries and to the warnings is lifted to any number of them.

`collect_exactly` is the result (`Collects`): which addresses are in the set, which hosts are looked
up in which order, what is warned about, and how the set depends on the lists of the user.
-/

namespace EgressControl.Seed

/-- The lines that warn of something. -/
def warnings (logs : List Log.Line) : List Log.Line := logs.filter (·.level = .warn)

/-- The warning on a host that has no address. -/
def unresolvedLine (host : String) : Log.Line :=
  .warn ("allowed host " ++ host ++ " did not resolve to any IPv4 address")

/-- The warnings among two parts of a log are those of the first part, and then those of the second
one. -/
private theorem warnings_append (xs ys : List Log.Line) :
    warnings (xs ++ ys) = warnings xs ++ warnings ys := List.filter_append ..

namespace Collection

/-- What is known before the first host is looked up. -/
def unresolved (sources : SeedSources) (d : Disk) : Collection where
  addresses := .addAll .empty
    ((Nameservers.ofSource d sources.nameservers).1.addresses ++
      (parseAddresses sources.addresses).1)
  queries := []
  logs := (Nameservers.ofSource d sources.nameservers).2 ++
    (if (Text.trimChars sources.hosts.toList).isEmpty then [.debug "no provided allowed hosts"]
      else []) ++ (parseAddresses sources.addresses).2

/-- Looks a host up. -/
def lookUp (r : Resolver) (c : Collection) (host : String) : Collection where
  addresses := c.addresses.addAll (r.addresses host)
  queries := c.queries ++ [host]
  logs := c.logs ++ lookupLines host (r.addresses host)

/-! ## Looking hosts up -/

variable (r : Resolver) (c : Collection) (hosts : List String)

/-- One after the other is looked up, and once only. -/
private theorem queries_foldl_lookUp : (hosts.foldl (lookUp r) c).queries = c.queries ++ hosts := by
  induction hosts generalizing c with
  | nil => exact (List.append_nil _).symm
  | cons host rest ih =>
    rw [List.foldl_cons, ih, lookUp, List.append_assoc, List.singleton_append]

/-- A look-up adds what the resolver answers. -/
private theorem contains_foldl_lookUp (x : Ipv4) :
    (hosts.foldl (lookUp r) c).addresses.contains x = true ↔
      c.addresses.contains x = true ∨ ∃ host ∈ hosts, x ∈ r.addresses host := by
  induction hosts generalizing c with
  | nil => simp
  | cons host rest ih =>
    rw [List.foldl_cons, ih, lookUp, AddressSet.contains_addAll]
    simp only [List.mem_cons, exists_eq_or_imp]
    rw [or_comm (a := x ∈ r.addresses host), or_assoc]

/-- A look-up warns if it gives no address, and only then. -/
private theorem warnings_lookupLines (host : String) (xs : List Ipv4) :
    warnings (lookupLines host xs) = if xs.isEmpty then [unresolvedLine host] else [] := by
  cases xs with
  | nil => rfl
  | cons x xs =>
    -- All that is told of an address is for whoever looks for faults.
    have hnone : warnings ((x :: xs).map fun y => .debug ("allowed host " ++ host ++ " -> " ++
        y.text)) = [] := by
      rw [warnings, List.filter_eq_nil_iff]
      intro line hline
      obtain ⟨y, -, rfl⟩ := List.mem_map.mp hline
      exact Bool.false_ne_true
    exact hnone

/-- Looking up hosts warns of those without addresses, in their order. -/
private theorem warnings_foldl_lookUp :
    warnings (hosts.foldl (lookUp r) c).logs =
      warnings c.logs ++ (hosts.filter fun h => (r.addresses h).isEmpty).map unresolvedLine := by
  induction hosts generalizing c with
  | nil => exact (List.append_nil _).symm
  | cons host rest ih =>
    rw [List.foldl_cons, ih, lookUp, warnings_append, warnings_lookupLines, List.filter_cons,
      List.append_assoc]
    split <;> rfl

/-- Looking up hosts adds the addresses of each of them. -/
private theorem addresses_foldl_lookUp :
    (hosts.foldl (lookUp r) c).addresses =
      hosts.foldl (fun s h => s.addAll (r.addresses h)) c.addresses := by
  induction hosts generalizing c with
  | nil => rfl
  | cons host rest ih => exact ih (c.lookUp r host)

/-- Looking up hosts tells the addresses of each of them, in their order. -/
private theorem logs_foldl_lookUp :
    (hosts.foldl (lookUp r) c).logs =
      c.logs ++ hosts.flatMap fun h => lookupLines h (r.addresses h) := by
  induction hosts generalizing c with
  | nil => exact (List.append_nil _).symm
  | cons host rest ih =>
    rw [List.foldl_cons, ih, lookUp, List.append_assoc, List.flatMap_cons]

end Collection

/-! ## The whole set -/

/-- The hosts of the nameserver file and those that the user names are looked up one after the
other, and the fixed addresses are added. -/
theorem collect_eq_foldl (sources : SeedSources) (d : Disk) (r : Resolver) :
    collect sources d r =
      let hosts := (Nameservers.ofSource d sources.nameservers).1.hosts ++ parseHosts sources.hosts
      let c := hosts.foldl (Collection.lookUp r) (.unresolved sources d)
      { c with addresses := c.addresses.addAll fixedAddresses } := by
  simp only [Collection.addresses_foldl_lookUp, Collection.queries_foldl_lookUp,
    Collection.logs_foldl_lookUp]
  rfl

variable {sources sources' : SeedSources} {d : Disk} {r : Resolver} {x : Ipv4}

/-- The hosts of the nameserver file are looked up first, and then those of the list. -/
theorem queries_collect (sources : SeedSources) (d : Disk) (r : Resolver) :
    (collect sources d r).queries =
      (Nameservers.ofSource d sources.nameservers).1.hosts ++ parseHosts sources.hosts := by
  rw [collect_eq_foldl]
  exact (Collection.queries_foldl_lookUp r _ _).trans (List.nil_append _)

/-- Addresses of nameservers are those of which the text is a server of the file. -/
private theorem mem_addresses_ofSource_iff {source : Option String} :
    x ∈ (Nameservers.ofSource d source).1.addresses ↔
      ∃ text, Nameservers.Readable d source text ∧ x.text.toList ∈ Nameservers.servers text := by
  -- A source that cannot be read gives no addresses, and there is no text of it.
  by_cases hreadable : ∃ text, Nameservers.Readable d source text
  · obtain ⟨text, hread⟩ := hreadable
    rw [Nameservers.ofSource_of_readable hread, Nameservers.mem_addresses_parse_iff]
    constructor
    · exact fun hx => ⟨text, hread, hx⟩
    · rintro ⟨text', hread', hx⟩
      rwa [hread'.text_eq hread]
  · rw [Nameservers.ofSource_of_unreadable fun text htext => hreadable ⟨text, htext⟩]
    constructor
    · intro hx
      exact absurd hx List.not_mem_nil
    · rintro ⟨text, htext, -⟩
      exact absurd ⟨text, htext⟩ hreadable

/-- An address is collected if it is fixed, listed, a nameserver of a `Readable` file, or an address
of a host that is looked up. -/
private theorem contains_collect_iff :
    (collect sources d r).addresses.contains x = true ↔
      x ∈ fixedAddresses ∨ x.text.toList ∈ items sources.addresses ∨
        (∃ text, Nameservers.Readable d sources.nameservers text ∧
          x.text.toList ∈ Nameservers.servers text) ∨
        ∃ host ∈ (collect sources d r).queries, x ∈ r.addresses host := by
  have hqueries := queries_collect sources d r
  rw [collect_eq_foldl] at hqueries ⊢
  simp only at hqueries ⊢
  rw [AddressSet.contains_addAll, Collection.contains_foldl_lookUp, hqueries,
    Collection.unresolved, AddressSet.contains_addAll, List.mem_append, mem_parseAddresses_iff,
    mem_addresses_ofSource_iff]
  have hempty : (Table.empty : AddressSet).contains x = false := rfl
  simp only [hempty, Bool.false_eq_true, or_false]
  rw [or_comm (b := x.text.toList ∈ _), or_assoc]

/-- More items never take an address out of the set. -/
private theorem contains_collect_mono (hnameservers : sources.nameservers = sources'.nameservers)
    (hhosts : ∀ item ∈ items sources.hosts, item ∈ items sources'.hosts)
    (haddresses : ∀ item ∈ items sources.addresses, item ∈ items sources'.addresses)
    (hx : (collect sources d r).addresses.contains x = true) :
    (collect sources' d r).addresses.contains x = true := by
  rw [contains_collect_iff] at hx ⊢
  rcases hx with hfixed | hitem | hserver | ⟨host, hquery, hanswer⟩
  · exact .inl hfixed
  · exact .inr (.inl (haddresses _ hitem))
  · exact .inr (.inr (.inl (hnameservers ▸ hserver)))
  · -- The host is a nameserver still, or one of the items.
    refine .inr (.inr (.inr ⟨host, ?_, hanswer⟩))
    rw [queries_collect, List.mem_append, mem_parseHosts_iff] at hquery ⊢
    rcases hquery with hname | hitem
    · exact .inl (hnameservers ▸ hname)
    · exact .inr (hhosts _ hitem)

/-- A file that cannot be read is nothing to warn of. -/
private theorem warnings_ofSource (d : Disk) (source : Option String) :
    warnings (Nameservers.ofSource d source).2 = [] := by
  cases source with
  | none => rfl
  | some path =>
    rw [Nameservers.ofSource, Nameservers.ofFile]
    cases d.readText path <;> rfl

/-- There is a warning for each listed text that is no address, and for each host without addresses,
and no other. -/
private theorem warnings_collect (sources : SeedSources) (d : Disk) (r : Resolver) :
    warnings (collect sources d r).logs =
      ((items sources.addresses).filter fun i => (Ipv4.parseChars? i).isNone).map badAddressLine ++
        ((collect sources d r).queries.filter fun h => (r.addresses h).isEmpty).map
          unresolvedLine := by
  -- What is said of an empty list of hosts is no warning, and what is said of a bad address
  -- is one.
  have hhosts : warnings (if (Text.trimChars sources.hosts.toList).isEmpty
      then [.debug "no provided allowed hosts"] else []) = [] := by
    split <;> rfl
  have hbad : warnings (parseAddresses sources.addresses).2 =
      (parseAddresses sources.addresses).2 := by
    rw [warnings, parseAddresses, List.filter_eq_self]
    intro line hline
    obtain ⟨item, -, rfl⟩ := List.mem_map.mp hline
    rfl
  rw [queries_collect, collect_eq_foldl]
  simp only [Collection.warnings_foldl_lookUp, Collection.unresolved, warnings_append,
    warnings_ofSource, hhosts, hbad, List.nil_append]
  rfl

/-- What is collected on a disk and with a resolver. -/
structure Collects (d : Disk) (r : Resolver) : Prop where
  /-- An address is in the set if it is fixed, if its text is an item of the user's list or a server
  of the file, or if the resolver answers with it. -/
  contains_iff : ∀ sources x, (collect sources d r).addresses.contains x = true ↔
    x ∈ fixedAddresses ∨ x.text.toList ∈ items sources.addresses ∨
      (∃ text, Nameservers.Readable d sources.nameservers text ∧
        x.text.toList ∈ Nameservers.servers text) ∨
      ∃ host ∈ (collect sources d r).queries, x ∈ r.addresses host
  /-- The resolver is asked once for every host: first for those of the file in the order of its
  lines, then for those of the user's list. -/
  queries : ∀ sources text, Nameservers.Readable d sources.nameservers text →
    (collect sources d r).queries = Nameservers.hostNames text ++ parseHosts sources.hosts
  queries_of_none : ∀ sources, sources.nameservers = none →
    (collect sources d r).queries = parseHosts sources.hosts
  /-- A file that is missing, that cannot be read or that is no text is as good as none. -/
  unreadable : ∀ (sources : SeedSources) (path : String),
    ((∃ e, d.read path = .error e) ∨ ∃ bytes, d.read path = .ok bytes ∧ ¬bytes.IsValidUTF8) →
      let c := collect { sources with nameservers := some path } d r
      let c' := collect { sources with nameservers := none } d r
      c.addresses = c'.addresses ∧ c.queries = c'.queries
  /-- There is one warning for each item that is no address, and then one for each host without
  one. -/
  warned : ∀ sources, warnings (collect sources d r).logs =
    ((items sources.addresses).filter fun i => (Ipv4.parseChars? i).isNone).map badAddressLine ++
      ((collect sources d r).queries.filter fun h => (r.addresses h).isEmpty).map unresolvedLine
  /-- The order in which the user lists hosts and addresses, and how often, makes no difference. -/
  reordered : ∀ nameservers hosts hosts' addresses addresses',
    (∀ s, s ∈ hosts ↔ s ∈ hosts') → (∀ s, s ∈ addresses ↔ s ∈ addresses') →
      (collect ⟨",".intercalate hosts, ",".intercalate addresses, nameservers⟩ d r).addresses =
        (collect ⟨",".intercalate hosts', ",".intercalate addresses', nameservers⟩ d r).addresses
  /-- What is added to the lists takes no address away. -/
  extended : ∀ nameservers hosts moreHosts addresses moreAddresses x,
    (collect ⟨",".intercalate hosts, ",".intercalate addresses,
      nameservers⟩ d r).addresses.contains x = true →
    (collect ⟨",".intercalate (hosts ++ moreHosts), ",".intercalate (addresses ++ moreAddresses),
      nameservers⟩ d r).addresses.contains x = true

/-- Items of some texts are items of all of them. -/
private theorem items_intercalate_mono {texts texts' : List String} (h : ∀ s ∈ texts, s ∈ texts') :
    ∀ item ∈ items (",".intercalate texts), item ∈ items (",".intercalate texts') := by
  intro item hitem
  obtain ⟨s, hs, hitem⟩ := mem_items_intercalate_iff.mp hitem
  exact mem_items_intercalate_iff.mpr ⟨s, h s hs, hitem⟩

/-- `collect` gives exactly the addresses of its four sources, on any disk and with any resolver
(`Collects`). -/
theorem collect_exactly (d : Disk) (r : Resolver) : Collects d r where
  contains_iff _ _ := contains_collect_iff
  queries sources text hread := by
    rw [queries_collect, Nameservers.ofSource_of_readable hread, Nameservers.hosts_parse]
  queries_of_none sources hnone := by
    rw [queries_collect, hnone]
    rfl
  unreadable sources path hpath := by
    intro c c'
    -- Neither source declares a server.
    have hqueries : c.queries = c'.queries := by
      simp only [c, c', queries_collect,
        Nameservers.ofSource_of_unreadable (Nameservers.not_readable hpath)]
      rfl
    refine ⟨AddressSet.ext_contains fun x => ?_, hqueries⟩
    have hnone : ∀ text, ¬Nameservers.Readable d none text := by
      rintro text ⟨_, hpath, -⟩
      contradiction
    simp only [c, c'] at hqueries ⊢
    rw [contains_collect_iff, contains_collect_iff, hqueries]
    simp only [Nameservers.not_readable hpath, hnone, false_and, exists_false]
  warned sources := warnings_collect sources d r
  reordered nameservers hosts hosts' addresses addresses' hhosts haddresses := by
    refine AddressSet.ext_contains fun x => ⟨?_, ?_⟩
    · exact contains_collect_mono rfl (items_intercalate_mono fun s => (hhosts s).mp)
        (items_intercalate_mono fun s => (haddresses s).mp)
    · exact contains_collect_mono rfl (items_intercalate_mono fun s => (hhosts s).mpr)
        (items_intercalate_mono fun s => (haddresses s).mpr)
  extended nameservers hosts moreHosts addresses moreAddresses x :=
    contains_collect_mono rfl (items_intercalate_mono fun _ => List.mem_append_left _)
      (items_intercalate_mono fun _ => List.mem_append_left _)

end EgressControl.Seed
