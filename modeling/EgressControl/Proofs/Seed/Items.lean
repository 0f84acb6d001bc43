import EgressControl.Proofs.Address.DottedQuad
import EgressControl.Proofs.Text.Blank
import EgressControl.Seed

/-!
# Lists with commas between their items

A list that is written behind another one, with a comma between them, adds its items
(`items_append_comma`), so that the items of any number of texts are known from each of them
(`items_intercalate`).  An item stands for an address exactly if it is the text of this address
(`mem_parseAddresses_iff`).

What an item is, is said without reading a list (`IsItem`).  The items of a list are such items, and
a list that is written from such items has exactly these (`items_intercalate_of_isItem`).
`parseHosts_parseAddresses_itemwise` puts together how lists of hosts and of addresses are read.
-/

namespace EgressControl.Seed

/-- A comma keeps the items before it and those behind it apart. -/
theorem items_append_comma (s t : String) : items (s ++ "," ++ t) = items s ++ items t := by
  have htext : (s ++ "," ++ t).toList = s.toList ++ ',' :: t.toList := by simp
  simp only [items, htext, @Text.cut_append_cons (· = ',') ',' (by decide),
    List.map_append, List.filter_append]

/-- An empty text has no items. -/
private theorem items_empty : items "" = [] := rfl

/-- With commas between them texts have the items that each of them has. -/
theorem items_intercalate (texts : List String) :
    items (",".intercalate texts) = texts.flatMap items := by
  induction texts with
  | nil => rw [String.intercalate_nil, items_empty, List.flatMap_nil]
  | cons s rest ih =>
    cases rest with
    | nil => rw [String.intercalate_singleton, List.flatMap_singleton]
    | cons t rest =>
      rw [String.intercalate_cons_cons, items_append_comma, ih]
      rfl

/-- A text among others adds its items, wherever it stands and however often. -/
theorem mem_items_intercalate_iff {texts : List String} {item : List Char} :
    item ∈ items (",".intercalate texts) ↔ ∃ s ∈ texts, item ∈ items s := by
  rw [items_intercalate, List.mem_flatMap]

/-- The addresses of a list are those of which the text is an item. -/
theorem mem_parseAddresses_iff {s : String} {x : Ipv4} :
    x ∈ (parseAddresses s).1 ↔ x.text.toList ∈ items s := by
  simp only [parseAddresses, List.mem_filterMap, Ipv4.parseChars?_eq_some_iff]
  constructor
  · rintro ⟨item, hitem, rfl⟩
    exact hitem
  · intro hitem
    exact ⟨_, hitem, rfl⟩

/-- The hosts are the items of the text. -/
theorem mem_parseHosts_iff {s : String} {host : String} :
    host ∈ parseHosts s ↔ host.toList ∈ items s := by
  rw [parseHosts, List.mem_map]
  constructor
  · rintro ⟨item, hitem, rfl⟩
    rwa [String.toList_ofList]
  · intro hitem
    exact ⟨_, hitem, String.ofList_toList⟩

/-! ## What an item is -/

/-- An item: it is not empty, there is no comma in it, and no white space at its ends. -/
structure IsItem (item : List Char) : Prop where
  ne_nil : item ≠ []
  comma_notMem : ',' ∉ item
  trimmed : Text.Trimmed item

/-- `items` gives nothing but items (`IsItem`). -/
private theorem isItem_of_mem_items {s : String} {item : List Char} (h : item ∈ items s) :
    IsItem item := by
  obtain ⟨hmem, hne⟩ := List.mem_filter.mp h
  obtain ⟨piece, hpiece, rfl⟩ := List.mem_map.mp hmem
  refine ⟨by simpa using hne, fun hcomma => ?_, Text.trimmed_trimChars piece⟩
  have hsep := (Text.of_mem_cut hpiece _ (Text.mem_of_mem_trimChars hcomma)).1
  exact absurd hsep (by decide)

/-- What has no comma is one item at most. -/
private theorem items_of_comma_notMem {s : String} (h : ',' ∉ s.toList) :
    items s = [Text.trimChars s.toList].filter (!·.isEmpty) := by
  rw [items, Text.cut_of_notMem h, List.map_singleton]

/-- White space is no item. -/
private theorem items_of_allBlank {s : String} (h : Text.AllBlank s.toList) : items s = [] := by
  rw [items_of_comma_notMem (h.notMem rfl), Text.trimChars_of_allBlank h]
  rfl

/-- An item is found again within white space. -/
private theorem items_padded {before item after : String} (hbefore : Text.AllBlank before.toList)
    (hitem : IsItem item.toList) (hafter : Text.AllBlank after.toList) :
    items (before ++ item ++ after) = [item.toList] := by
  have hblank : Text.isBlank ',' = false := rfl
  have hcomma : ',' ∉ (before ++ item ++ after).toList := by
    simp [hbefore.notMem hblank, hitem.comma_notMem, hafter.notMem hblank]
  have htext : (before ++ item ++ after).toList = before.toList ++ item.toList ++ after.toList := by
    simp
  rw [items_of_comma_notMem hcomma, htext, Text.trimChars_padded hbefore hafter,
    hitem.trimmed.trimChars_eq]
  simpa using hitem.ne_nil

/-- Items with commas between them are read back. -/
theorem items_intercalate_of_isItem {texts : List String} (h : ∀ s ∈ texts, IsItem s.toList) :
    items (",".intercalate texts) = texts.map String.toList := by
  have hitem : ∀ s ∈ texts, items s = [s.toList] := by
    intro s hs
    have hpadded : items ("" ++ s ++ "") = [s.toList] := items_padded nofun (h s hs) nofun
    rwa [String.empty_append, String.append_empty] at hpadded
  rw [items_intercalate, List.flatMap_congr hitem, List.map_eq_flatMap]

/-- Every host is an item (`IsItem`). -/
private theorem forall_isItem_parseHosts (s : String) : ∀ host ∈ parseHosts s, IsItem host.toList :=
  fun _ hhost => isItem_of_mem_items (mem_parseHosts_iff.mp hhost)

/-- The `text` of an address is an item. -/
private theorem isItem_text (x : Ipv4) : IsItem x.text.toList where
  ne_nil := by simp [Ipv4.toList_text]
  comma_notMem := Ipv4.notMem_text (by decide) (by decide) x
  trimmed := x.solid_text.trimmed

/-! ## Reading lists -/

/-- What becomes of hosts that are taken for addresses: one that is the text of an address stands
for it, and there is a line on each of the others. -/
inductive Sifted : List String → List Ipv4 → List Log.Line → Prop
  | nil : Sifted [] [] []
  | address (x : Ipv4) {hosts xs lines} (rest : Sifted hosts xs lines) :
    Sifted (x.text :: hosts) (x :: xs) lines
  | other {host : String} (hother : ∀ x : Ipv4, host ≠ x.text) {hosts xs lines}
    (rest : Sifted hosts xs lines) :
    Sifted (host :: hosts) xs (badAddressLine host.toList :: lines)

/-- The items that are texts of addresses give these addresses, and each of the others gives a line
(`Sifted`). -/
private theorem sifted_items (is : List (List Char)) :
    Sifted (is.map String.ofList) (is.filterMap Ipv4.parseChars?)
      ((is.filter fun i => (Ipv4.parseChars? i).isNone).map badAddressLine) := by
  induction is with
  | nil => exact .nil
  | cons i is ih =>
    cases hparse : Ipv4.parseChars? i with
    | some x =>
      obtain rfl := Ipv4.parseChars?_eq_some_iff.mp hparse
      rw [List.filterMap_cons_some hparse, List.filter_cons_of_neg (by simp [hparse]),
        List.map_cons, String.ofList_toList]
      exact .address x ih
    | none =>
      -- An item that is not read is no literal's text, since every literal is read back.
      have hother : ∀ x : Ipv4, String.ofList i ≠ x.text := fun x heq =>
        Ipv4.parseChars?_eq_none_iff.mp hparse x (by rw [← heq, String.toList_ofList])
      rw [List.filterMap_cons_none hparse, List.filter_cons_of_pos (by simp [hparse]),
        List.map_cons, List.map_cons]
      have hsifted := Sifted.other hother ih
      rwa [String.toList_ofList] at hsifted

/-- How lists with commas between their items are read. -/
structure ReadsLists : Prop where
  /-- Every host is an item. -/
  hosts : ∀ s, ∀ host ∈ parseHosts s, IsItem host.toList
  /-- White space is no item, and an item is read wherever it stands in white space. -/
  blank : ∀ s : String, Text.AllBlank s.toList → parseHosts s = []
  padded : ∀ before host after : String, Text.AllBlank before.toList → IsItem host.toList →
    Text.AllBlank after.toList → parseHosts (before ++ host ++ after) = [host]
  /-- With a comma between them, two lists are read one after the other. -/
  hosts_comma : ∀ s t, parseHosts (s ++ "," ++ t) = parseHosts s ++ parseHosts t
  addresses_comma : ∀ s t, parseAddresses (s ++ "," ++ t) =
    ((parseAddresses s).1 ++ (parseAddresses t).1, (parseAddresses s).2 ++ (parseAddresses t).2)
  /-- The hosts of a list make a list with the same hosts. -/
  rejoined : ∀ s, parseHosts (",".intercalate (parseHosts s)) = parseHosts s
  /-- The addresses of a list are the hosts that are written as addresses, in their order, and there
  is one line on each of the others. -/
  sifted : ∀ s, Sifted (parseHosts s) (parseAddresses s).1 (parseAddresses s).2
  /-- Addresses that are written down are read back, and nothing is told. -/
  written : ∀ xs : List Ipv4, parseAddresses (",".intercalate (xs.map Ipv4.text)) = (xs, [])

/-- `parseHosts` and `parseAddresses` read a list item by item (`ReadsLists`). -/
theorem parseHosts_parseAddresses_itemwise : ReadsLists where
  hosts := forall_isItem_parseHosts
  blank s hs := by
    rw [parseHosts, items_of_allBlank hs]
    rfl
  padded before host after hbefore hhost hafter := by
    rw [parseHosts, items_padded hbefore hhost hafter, List.map_singleton, String.ofList_toList]
  hosts_comma s t := by
    rw [parseHosts, items_append_comma, List.map_append]
    rfl
  addresses_comma s t := by
    simp only [parseAddresses, items_append_comma, List.filterMap_append, List.filter_append,
      List.map_append]
  rejoined s := by
    rw [parseHosts, items_intercalate_of_isItem (forall_isItem_parseHosts s), List.map_map]
    exact List.map_id'' (fun host => String.ofList_toList) _
  sifted s := sifted_items (items s)
  written xs := by
    -- Literals hold no comma and no blank, so the list's items are the texts it was made
    -- of.
    have hitems : items (",".intercalate (xs.map Ipv4.text)) =
        (xs.map Ipv4.text).map String.toList :=
      items_intercalate_of_isItem (List.forall_mem_map.mpr fun x _ => isItem_text x)
    have hread (x : Ipv4) : Ipv4.parseChars? x.text.toList = some x :=
      Ipv4.parseChars?_eq_some_iff.mpr rfl
    simp only [parseAddresses, hitems, List.map_map, List.filterMap_map, List.filter_map,
      Function.comp_def, hread, List.filterMap_some, Option.isNone_some, List.filter_false,
      List.map_nil]

end EgressControl.Seed
