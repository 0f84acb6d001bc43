import EgressControl.Disk

/-!
# What is written on a disk and read from it

A file that has just been created is empty, and what is written at its beginning is all that it
holds.  `readText_of_written` says that a text that was written in this way is read back from the
same path.

What makes this work is that a file does not stand in the way of a path: `locate_write` follows a
path after a node has been written that was no directory before.

A file is read as text exactly if its bytes are those of this text (`readText_eq_ok_iff`).
-/

namespace EgressControl

namespace Disk

variable {d d' : Disk} {key : List String} {node : Node}

/-- A disk after a node has been written. -/
def write (d : Disk) (key : List String) (node : Node) : Disk :=
  { d with nodes := d.nodes.insert key node }

/-- `write` puts its node under its own key, and leaves all others alone. -/
theorem get?_write (d : Disk) (key names : List String) (node : Node) :
    (d.write key node).nodes.get? names =
      if names = key then some node else d.nodes.get? names := by
  simp only [write, Table.get?_insert, Std.LawfulEqCmp.compare_eq_iff_eq]

/-- Directories that have been entered are still there. -/
private theorem enter_write (hkey : d.nodes.get? key ≠ some .directory)
    {dir names target : List String}
    (h : d.enter dir names = .ok target) : (d.write key node).enter dir names = .ok target := by
  induction names generalizing dir with
  | nil => exact h
  | cons c rest ih =>
    unfold enter at h ⊢
    split
    · next hc =>
      rw [if_pos hc] at h
      exact ih h
    · next hc =>
      rw [if_neg hc] at h
      split
      · next hup =>
        rw [if_pos hup] at h
        exact ih h
      · next hup =>
        rw [if_neg hup] at h
        split
        · next hlong => simp [hlong] at h
        · next hlong =>
          rw [if_neg hlong] at h
          split at h
          · next hdir =>
            -- The directory is not the node that has been written.
            have hne : dir ++ [c] ≠ key := fun heq => hkey (heq ▸ hdir)
            rw [get?_write, if_neg hne, hdir]
            exact ih h
          · simp at h
          · simp at h

/-- A path leads to a name in a directory if its last component is one and the others can be
entered. -/
private theorem locate_eq_ok_iff {path name : String} {dir : List String} {slash : Bool} :
    d.locate path = .ok ⟨dir, some name, slash⟩ ↔
      (path.toList.contains '\x00' = false ∧ path.isEmpty = false ∧
        path.utf8ByteSize < pathBytesLimit ∧ (components path).getLast? = some name ∧
        (name = "." || name = "..") = false ∧ path.endsWith "/" = slash) ∧
      d.enter (if path.startsWith "/" then [] else d.home) (components path).dropLast =
        .ok dir := by
  unfold locate
  split
  · next hzero => simp only [hzero]; simp
  split
  · next hempty => simp only [hempty]; simp
  split
  · next hlong => simp [Nat.not_lt.mpr hlong]
  next hzero hempty hlong =>
    simp only [Bool.not_eq_true] at hzero hempty
    simp only [hzero, hempty, Nat.lt_of_not_ge hlong]
    cases hlast : (components path).getLast? with
    | none => simp
    | some c =>
      dsimp only
      split
      · next hdots =>
        -- Such a component leads to a directory, without a name in it.
        constructor
        · intro h
          cases henter : d.enter (if path.startsWith "/" then [] else d.home) (components path) <;>
            rw [henter] at h <;> simp [Except.map] at h
        · rintro ⟨⟨-, -, -, hname, hnot, -⟩, -⟩
          rw [Option.some.inj hname, hnot] at hdots
          simp at hdots
      · next hdots =>
        simp only [Bool.not_eq_true] at hdots
        cases henter : d.enter (if path.startsWith "/" then [] else d.home)
            (components path).dropLast with
        | error e => simp [Except.map]
        | ok target =>
          simp only [Except.map, Except.ok.injEq, Place.mk.injEq, Option.some.injEq]
          constructor
          · rintro ⟨rfl, rfl, rfl⟩
            simp [hdots]
          · rintro ⟨⟨-, -, -, rfl, -, rfl⟩, rfl⟩
            exact ⟨rfl, rfl, rfl⟩

/-- A path leads to where it led before a file was written. -/
theorem locate_write (hkey : d.nodes.get? key ≠ some .directory) {path name : String}
    {dir : List String} {slash : Bool} (h : d.locate path = .ok ⟨dir, some name, slash⟩) :
    (d.write key node).locate path = .ok ⟨dir, some name, slash⟩ := by
  obtain ⟨hpath, henter⟩ := locate_eq_ok_iff.mp h
  exact locate_eq_ok_iff.mpr ⟨hpath, enter_write hkey henter⟩

/-- The full device may be opened for writing, which changes nothing. -/
theorem create_of_find_fullDevice {path : String} (h : d.find path = .ok .fullDevice) :
    ∃ key, d.create path = .ok (key, d) ∧ d.nodes.get? key = some .fullDevice := by
  -- `find` passes the same checks as `create` does before it looks at the node.
  unfold find at h
  split at h
  · simp at h
  · simp at h
  · next dir name slash hlocate =>
    split at h
    · simp at h
    · next hname =>
      split at h
      · simp at h
      · simp at h
      · next node _ hnode =>
        split at h
        · simp at h
        · next hslash =>
          obtain rfl := Except.ok.inj h
          exact ⟨dir ++ [name], by simp [create, hlocate, hslash, hname, hnode], hnode⟩

/-- A file that is created stands where its path leads, empty; the full device may be opened too. -/
private theorem create_eq_ok {path : String} (h : d.create path = .ok (key, d')) :
    ∃ dir name, d.locate path = .ok ⟨dir, some name, false⟩ ∧ key = dir ++ [name] ∧
      name.utf8ByteSize ≤ maxNameBytes ∧ d.nodes.get? key ≠ some .directory ∧
      (d' = d ∧ d.nodes.get? key = some .fullDevice ∨ d' = d.write key (.file .empty)) := by
  -- `create` refuses a path with no last name, one that ends in a slash, a long name, and a
  -- directory; what is left writes a file or finds the device.
  unfold create at h
  split at h
  · simp at h
  · simp at h
  · next dir name slash hlocate =>
    dsimp only at h
    split at h
    · simp at h
    · next hslash =>
      split at h
      · simp at h
      · next hlong =>
        rw [Bool.not_eq_true] at hslash
        rw [hslash] at hlocate
        have hname : name.utf8ByteSize ≤ maxNameBytes := Nat.le_of_not_lt hlong
        split at h
        · simp at h
        · next hnode =>
          obtain ⟨rfl, rfl⟩ := Prod.mk.inj (Except.ok.inj h)
          exact ⟨dir, name, hlocate, rfl, hname, by simp [hnode], .inl ⟨rfl, hnode⟩⟩
        · next hnode =>
          obtain ⟨rfl, rfl⟩ := Prod.mk.inj (Except.ok.inj h)
          exact ⟨dir, name, hlocate, rfl, hname, by simp [hnode], .inr rfl⟩
        · next hnode =>
          obtain ⟨rfl, rfl⟩ := Prod.mk.inj (Except.ok.inj h)
          exact ⟨dir, name, hlocate, rfl, hname, by simp [hnode], .inr rfl⟩

/-- Bytes are read as the text whose encoding they are. -/
private theorem fromUTF8?_eq_some_iff {bytes : ByteArray} {text : String} :
    String.fromUTF8? bytes = some text ↔ bytes = text.toUTF8 := by
  unfold String.fromUTF8?
  split
  · rw [Option.some.injEq, ← String.toByteArray_inj]
    rfl
  · next hinvalid =>
    constructor
    · simp
    · rintro rfl
      exact absurd text.isValidUTF8 hinvalid

/-- A file is read as a text if it can be read and consists of the bytes of this text. -/
theorem readText_eq_ok_iff {path text : String} :
    d.readText path = .ok text ↔ d.read path = .ok text.toUTF8 := by
  unfold readText
  cases d.read path with
  | error e => simp
  | ok content =>
    rw [Except.ok.injEq, ← fromUTF8?_eq_some_iff]
    dsimp only
    split
    · next htext => rw [htext, Except.ok.injEq, Option.some.injEq]
    · next htext => simp [htext]

section Leads

variable {path : String}

/-- A path leads to the node under a key. -/
def Leads (d : Disk) (path : String) (key : List String) : Prop :=
  ∃ dir name, d.locate path = .ok ⟨dir, some name, false⟩ ∧ key = dir ++ [name] ∧
    name.utf8ByteSize ≤ maxNameBytes

/-- A path leads where it led, after what is no directory has been overwritten. -/
theorem Leads.write (h : d.Leads path key) (hkey : d.nodes.get? key ≠ some .directory)
    (node : Node) : (d.write key node).Leads path key := by
  obtain ⟨dir, name, hlocate, rfl, hname⟩ := h
  exact ⟨dir, name, locate_write hkey hlocate, rfl, hname⟩

/-- A path that leads to a key (`Leads`) finds the node under this key. -/
theorem Leads.find {node : Node} (h : d.Leads path key) (hnode : d.nodes.get? key = some node) :
    d.find path = .ok node := by
  obtain ⟨dir, name, hlocate, rfl, hname⟩ := h
  simp only [Disk.find, hlocate, Nat.not_lt.mpr hname, if_false, hnode]
  cases node <;> rfl

/-- The file to which a path leads is read as text. -/
theorem Leads.readText {text : String} (h : d.Leads path key)
    (hfile : d.nodes.get? key = some (.file text.toUTF8)) : d.readText path = .ok text := by
  rw [readText_eq_ok_iff, read, h.find hfile]

/-- A path that can be created leads to the full device or to an empty file. -/
theorem leads_of_create (h : d.create path = .ok (key, d')) :
    d'.Leads path key ∧
      (d' = d ∧ d.nodes.get? key = some .fullDevice ∨ d' = d.write key (.file .empty)) := by
  obtain ⟨dir, name, hlocate, rfl, hname, hkey, hdisk⟩ := create_eq_ok h
  have hleads : d.Leads path (dir ++ [name]) := ⟨dir, name, hlocate, rfl, hname⟩
  refine ⟨?_, hdisk⟩
  rcases hdisk with ⟨rfl, -⟩ | rfl
  · exact hleads
  · exact hleads.write hkey _

end Leads

end Disk

end EgressControl
