import EgressControl.Proofs.Address.Ipv6
import EgressControl.Proofs.Seed.Nameservers
import EgressControl.Proofs.Text.Lines
import Mathlib.Data.List.Forall2

/-!
# How a nameserver file is read

What a line declares is said by its words (`Declares`): a server with an IPv4 address, a server
with a name, or nothing.  The words leave no choice (`Declares.eq_ofLine`).  A text that is
written behind another one, with a line feed between them, adds what it declares
(`parse_append_lineFeed`), so that every text is known from its lines, and white space on them
makes no difference.  `parse_linewise` puts this together; it also says that servers that are
written down, each in a line of its own, are read back.
-/

namespace EgressControl.Seed.Nameservers

open Text (AllBlank Solid)

/-! ## One line -/

/-- What a line declares, by its words. -/
inductive Declares (line : List Char) : Nameservers → Prop
  | address (x : Ipv4) {more : List (List Char)}
    (hwords : Text.words line = "nameserver".toList :: x.text.toList :: more) :
    Declares line { addresses := [x] }
  | ipv6 {server : List Char} {more : List (List Char)}
    (hwords : Text.words line = "nameserver".toList :: server :: more)
    (hserver : Ipv6.Spelling server) : Declares line {}
  | host {server : List Char} {more : List (List Char)}
    (hwords : Text.words line = "nameserver".toList :: server :: more)
    (hipv4 : ∀ x : Ipv4, server ≠ x.text.toList) (hipv6 : ¬Ipv6.Spelling server) :
    Declares line { hosts := [.ofList server] }
  | nothing
    (hwords : ∀ server more, Text.words line ≠ "nameserver".toList :: server :: more) :
    Declares line {}

/-- A line has a server if its first word is `nameserver`, and the server is the second word. -/
private theorem server?_eq_some_iff {line server : List Char} :
    server? line = some server ↔
      ∃ more, Text.words line = "nameserver".toList :: server :: more := by
  unfold server?
  split
  · next key found rest hwords =>
    rw [hwords]
    split <;> simp_all
  · next hwords =>
    constructor
    · simp
    · rintro ⟨more, hmore⟩
      exact absurd hmore (hwords _ _ _)

/-- The words of a line behind the server make no difference. -/
private theorem ofLine_of_words {line server : List Char} {more : List (List Char)}
    (hwords : Text.words line = "nameserver".toList :: server :: more) :
    ofLine line = ofServer server := by
  rw [ofLine, hwords]
  exact if_pos rfl

/-- A name is neither of the two kinds of addresses. -/
private theorem ofServer_of_name {server : List Char} (hipv4 : ∀ x : Ipv4, server ≠ x.text.toList)
    (hipv6 : ¬Ipv6.Spelling server) : ofServer server = { hosts := [.ofList server] } := by
  rw [ofServer, Ipv4.parseChars?_eq_none_iff.mpr hipv4]
  exact if_neg (mt Ipv6.isLiteral_iff.mp hipv6)

/-- `ofLine` reads what a line `Declares`. -/
private theorem declares_ofLine (line : List Char) : Declares line (ofLine line) := by
  rw [ofLine_eq]
  cases hserver : server? line with
  | none =>
    -- A line that declares a server would have been read as one.
    apply Declares.nothing
    intro server more hwords
    rw [server?_eq_some_iff.mpr ⟨more, hwords⟩] at hserver
    contradiction
  | some server =>
    obtain ⟨more, hwords⟩ := server?_eq_some_iff.mp hserver
    rw [Option.elim_some, ofServer]
    cases hparse : Ipv4.parseChars? server with
    | some x =>
      rw [Ipv4.parseChars?_eq_some_iff.mp hparse] at hwords
      exact .address x hwords
    | none =>
      dsimp only
      split
      · next hliteral => exact .ipv6 hwords (Ipv6.isLiteral_iff.mp hliteral)
      · next hliteral =>
        exact .host hwords (Ipv4.parseChars?_eq_none_iff.mp hparse)
          (mt Ipv6.isLiteral_iff.mpr hliteral)

/-- The words of a line leave no choice. -/
theorem Declares.eq_ofLine {line : List Char} {part : Nameservers} (h : Declares line part) :
    part = ofLine line := by
  cases h with
  | address x hwords =>
    rw [ofLine_of_words hwords, ofServer, Ipv4.parseChars?_eq_some_iff.mpr rfl]
  | ipv6 hwords hserver =>
    rw [ofLine_of_words hwords, ofServer, Ipv4.parseChars?_eq_none_iff.mpr hserver.ne_text]
    exact (if_pos (Ipv6.isLiteral_iff.mpr hserver)).symm
  | host hwords hipv4 hipv6 => rw [ofLine_of_words hwords, ofServer_of_name hipv4 hipv6]
  | nothing hwords =>
    -- `hwords` says that the words are no declaration of any server.
    have hnone : server? line = none := by
      rw [Option.eq_none_iff_forall_ne_some]
      intro server hserver
      obtain ⟨more, hmore⟩ := server?_eq_some_iff.mp hserver
      exact hwords server more hmore
    rw [ofLine_eq, hnone]
    rfl

/-- `ofLine` depends on the words of the line alone. -/
private theorem ofLine_congr {l m : List Char} (h : Text.words l = Text.words m) :
    ofLine l = ofLine m := by
  unfold ofLine
  rw [h]

/-! ## All lines -/

/-- Nothing is added by an empty file. -/
private theorem append_empty (x : Nameservers) : x.append {} = x := by
  simp [append]

/-- Three files are read one after the other, however they are put together. -/
private theorem append_assoc (x y z : Nameservers) :
    (x.append y).append z = x.append (y.append z) := by
  simp [append]

/-- Two lists of lines are read one after the other. -/
private theorem ofLines_append (ls ms : List (List Char)) :
    ofLines (ls ++ ms) = (ofLines ls).append (ofLines ms) := by
  induction ls with
  | nil => rfl
  | cons l ls ih =>
    rw [List.cons_append, ofLines_cons, ih, ofLines_cons, append_assoc]

/-- Line ends make no difference, nor does an empty last line. -/
private theorem ofLines_linesOf (pieces : List (List Char)) :
    ofLines (Text.linesOf pieces) = ofLines pieces := by
  fun_induction Text.linesOf pieces with
  | case1 => rfl
  | case2 last hlast => rw [List.isEmpty_iff.mp hlast]; rfl
  | case3 last hlast => rfl
  | case4 l m ls ih =>
    rw [ofLines_cons, ofLines_cons, ofLine_congr (Text.words_dropReturn l), ih]

/-- A carriage return in front of a line feed makes no difference, since it is white space. -/
private theorem parse_eq_ofLines_cut (content : String) :
    parse content = ofLines (Text.cut (· = '\n') content.toList) := ofLines_linesOf _

/-- A line feed keeps what is declared before it and behind it apart. -/
theorem parse_append_lineFeed (a b : String) :
    parse (a ++ "\n" ++ b) = (parse a).append (parse b) := by
  have htext : (a ++ "\n" ++ b).toList = a.toList ++ '\n' :: b.toList := by simp
  simp only [parse_eq_ofLines_cut, htext, @Text.cut_append_cons (· = '\n') '\n' (by decide),
    ofLines_append]

/-- A text without a line feed is one line. -/
private theorem parse_line {line : String} (h : '\n' ∉ line.toList) :
    parse line = ofLine line.toList := by
  rw [parse_eq_ofLines_cut, Text.cut_of_notMem h]
  exact append_empty _

/-- A file is read line by line, if none of the lines has a line feed in it. -/
private theorem parse_intercalate {ls : List String} (h : ∀ l ∈ ls, '\n' ∉ l.toList) :
    parse ("\n".intercalate ls) = ofLines (ls.map String.toList) := by
  induction ls with
  | nil => rfl
  | cons l ls ih =>
    obtain ⟨hl, hls⟩ := List.forall_mem_cons.mp h
    -- The last line has no line feed behind it.
    cases ls with
    | nil =>
      rw [String.intercalate_singleton, parse_line hl]
      exact (append_empty _).symm
    | cons m ls =>
      rw [String.intercalate_cons_cons, parse_append_lineFeed, parse_line hl, ih hls]
      rfl

/-! ## Lines that are written in different ways -/

/-- A line with more white space around it, or with more words behind the second one. -/
inductive Extended (line : String) : String → Prop
  | padded (before after : String) (hbefore : AllBlank before.toList)
    (hafter : AllBlank after.toList) : Extended line (before ++ line ++ after)
  | longer (c : Char) (more : String) (hc : Text.isBlank c = true)
    (hwords : 2 ≤ (Text.words line.toList).length) :
    Extended line (line ++ .singleton c ++ more)

/-- The third word and all others do not count. -/
private theorem ofLine_of_words_append {l m : List Char} {more : List (List Char)}
    (hwords : 2 ≤ (Text.words l).length) (h : Text.words m = Text.words l ++ more) :
    ofLine m = ofLine l := by
  unfold ofLine
  rw [h]
  match Text.words l, hwords with
  | key :: server :: rest, _ => rfl

/-- White space around a line and further words in it make no difference. -/
private theorem Extended.ofLine_eq {l m : String} (h : Extended l m) :
    ofLine m.toList = ofLine l.toList := by
  cases h with
  | padded before after hbefore hafter =>
    apply ofLine_congr
    rw [String.toList_append, String.toList_append, Text.words_padded hbefore hafter]
  | longer c more hc hwords =>
    have htext : (l ++ String.singleton c ++ more).toList = l.toList ++ c :: more.toList := by simp
    rw [htext]
    exact ofLine_of_words_append hwords (Text.words_append_cons hc ..)

/-! ## Servers that are written down -/

/-- The name of a host, which cannot be taken for an address. -/
structure IsName (host : String) : Prop where
  ne_empty : host ≠ ""
  solid : Solid host.toList
  not_ipv4 : ∀ x : Ipv4, host ≠ x.text
  not_ipv6 : ¬Ipv6.Spelling host.toList

/-- The line that declares a server. -/
def serverLine : Ipv4 ⊕ String → String
  | .inl x => "nameserver " ++ x.text
  | .inr host => "nameserver " ++ host

/-- The line on a server has two words. -/
private theorem words_serverLine {server : List Char} (hne : server ≠ []) (h : Solid server) :
    Text.words ("nameserver ".toList ++ server) = ["nameserver".toList, server] := by
  have hline : "nameserver ".toList ++ server = "nameserver".toList ++ ' ' :: server := rfl
  have hkey : Solid "nameserver".toList := by decide
  rw [hline, Text.words_append_cons (by decide), Text.words_of_solid hkey nofun,
    Text.words_of_solid h hne]
  rfl

/-- The line on a server is read as this server. -/
private theorem parse_serverText {server : String} (hne : server ≠ "") (h : Solid server.toList) :
    parse ("nameserver " ++ server) = ofServer server.toList := by
  have hfeed : '\n' ∉ ("nameserver " ++ server).toList := by
    rw [String.toList_append, List.mem_append, not_or]
    exact ⟨by decide, fun hmem => absurd (h _ hmem) (by decide)⟩
  have hwords := words_serverLine (fun hnil => hne (String.toList_eq_nil_iff.mp hnil)) h
  rw [parse_line hfeed, String.toList_append, ofLine_of_words hwords]

/-- A server is read back from its line. -/
private theorem parse_serverLine {server : Ipv4 ⊕ String}
    (h : ∀ host ∈ server.getRight?, IsName host) :
    parse (serverLine server) = ⟨server.getRight?.toList, server.getLeft?.toList⟩ := by
  cases server with
  | inl x =>
    have hne : x.text ≠ "" := fun hempty => by simpa [hempty] using x.toList_text
    rw [serverLine, parse_serverText hne x.solid_text, ofServer,
      Ipv4.parseChars?_eq_some_iff.mpr rfl]
    rfl
  | inr host =>
    -- A name is read back only if it is not taken for an address of either kind.
    obtain ⟨hne, hsolid, hipv4, hipv6⟩ := h host rfl
    have htext : ∀ x : Ipv4, host.toList ≠ x.text.toList := fun x hx =>
      hipv4 x (String.toList_inj.mp hx)
    rw [serverLine, parse_serverText hne hsolid, ofServer_of_name htext hipv6, String.ofList_toList]
    rfl

/-- The lines on some servers are read as their names and their addresses, each in their order. -/
private theorem parse_serverLines {servers : List (Ipv4 ⊕ String)}
    (h : ∀ host, .inr host ∈ servers → IsName host) :
    parse (Text.unlines (servers.map serverLine)) =
      ⟨servers.filterMap Sum.getRight?, servers.filterMap Sum.getLeft?⟩ := by
  induction servers with
  | nil => rfl
  | cons server servers ih =>
    have hserver : ∀ host ∈ server.getRight?, IsName host := by
      intro host hhost
      rw [Option.mem_def, Sum.getRight?_eq_some_iff] at hhost
      exact h host (hhost ▸ List.mem_cons_self)
    rw [List.map_cons, Text.unlines_cons, parse_append_lineFeed, parse_serverLine hserver,
      ih fun host hhost => h host (List.mem_cons_of_mem _ hhost)]
    cases server <;> rfl

/-! ## Reading a file -/

/-- How nameserver files are read. -/
structure ReadsNameservers : Prop where
  /-- With a line feed between them, two texts are read one after the other. -/
  lineFeed : ∀ a b, parse (a ++ "\n" ++ b) = (parse a).append (parse b)
  /-- The words of a line say what it declares. -/
  once : ∀ line, ∃! part, Declares line part
  /-- Each line declares this, and there is nothing else in a file. -/
  lines : ∀ content, ∃ parts, List.Forall₂ Declares (Text.lines content.toList) parts ∧
    parse content = parts.foldr append {}
  /-- White space around lines, carriage returns among it, makes no difference, nor do further
  words. -/
  extended : ∀ ls ms, List.Forall₂ Extended ls ms → (∀ l ∈ ls, '\n' ∉ l.toList) →
    (∀ m ∈ ms, '\n' ∉ m.toList) → parse ("\n".intercalate ms) = parse ("\n".intercalate ls)
  /-- Servers that are written down are read back: names and addresses, each in their order. -/
  written : ∀ servers : List (Ipv4 ⊕ String), (∀ host, .inr host ∈ servers → IsName host) →
    parse (Text.unlines (servers.map serverLine)) =
      ⟨servers.filterMap Sum.getRight?, servers.filterMap Sum.getLeft?⟩

/-- `Nameservers.parse` reads a file line by line, and a line by its first two words
(`ReadsNameservers`). -/
theorem parse_linewise : ReadsNameservers where
  lineFeed := parse_append_lineFeed
  once line := ⟨ofLine line, declares_ofLine line, fun _ hpart => hpart.eq_ofLine⟩
  lines content := by
    refine ⟨(Text.lines content.toList).map ofLine, ?_, ?_⟩
    · rw [List.forall₂_map_right_iff, List.forall₂_same]
      exact fun line _ => declares_ofLine line
    · rw [List.foldr_map]
      rfl
  extended ls ms h hls hms := by
    rw [parse_intercalate hls, parse_intercalate hms]
    -- The lines hold no line feed, which the induction has no use for.
    clear hls hms
    induction h with
    | nil => rfl
    | cons hline _ ih =>
      rw [List.map_cons, List.map_cons, ofLines_cons, ofLines_cons, ih, hline.ofLine_eq]
  written _ := parse_serverLines

end EgressControl.Seed.Nameservers
