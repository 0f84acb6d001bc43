import EgressControl.Connection
import EgressControl.Proofs.Text.Utf8.Reading
import Mathlib.Data.List.TakeWhile

/-!
# Task names

The kernel keeps the name of a task in a field of 16 bytes.  The name ends at the first zero, or
with the field if there is none (`BeforeZero`).

A task may set any bytes as its name, and one that is too long is cut, even in the middle of a
character.  A name that is UTF-8 is shown as it is, byte for byte; in any other there are
replacement characters, and nothing but its bytes decides where (`taskName_reads_up_to_zero`).
-/

namespace EgressControl

open Text

/-! ## Where the name ends -/

/-- The part of a field in front of the first zero, or all of it if there is none. -/
def BeforeZero (field part : List UInt8) : Prop :=
  0 ∉ part ∧ (part = field ∨ part ++ [0] <+: field)

/-- The bytes up to the first zero stand before it (`BeforeZero`). -/
private theorem beforeZero_takeWhile (field : List UInt8) :
    BeforeZero field (field.takeWhile (· ≠ 0)) := by
  induction field with
  | nil => exact ⟨List.not_mem_nil, .inl rfl⟩
  | cons b field ih =>
    by_cases hb : b = 0
    · subst hb
      exact ⟨List.not_mem_nil, .inr (List.cons_prefix_cons.mpr ⟨rfl, List.nil_prefix⟩)⟩
    · obtain ⟨hzero, hends⟩ := ih
      rw [List.takeWhile_cons_of_pos (by simpa using hb)]
      refine ⟨List.not_mem_cons_of_ne_of_not_mem (Ne.symm hb) hzero, ?_⟩
      rcases hends with hall | hstarts
      · exact .inl (congrArg (b :: ·) hall)
      · exact .inr (List.cons_prefix_cons.mpr ⟨rfl, hstarts⟩)

/-- `BeforeZero` says which bytes are taken: those up to the first zero. -/
private theorem beforeZero_iff {field part : List UInt8} :
    BeforeZero field part ↔ part = field.takeWhile (· ≠ 0) := by
  constructor
  · rintro ⟨hzero, hends⟩
    have hall : ∀ b ∈ part, decide (b ≠ 0) = true := fun b hb => by
      simpa using ne_of_mem_of_not_mem hb hzero
    rcases hends with rfl | ⟨rest, rfl⟩
    · exact (List.takeWhile_eq_self_iff.mpr hall).symm
    · rw [List.append_assoc, List.takeWhile_append_of_pos hall]
      simp
  · rintro rfl
    exact beforeZero_takeWhile field

/-- There are no more bytes before the first zero than in the whole field. -/
private theorem BeforeZero.length_le {field part : List UInt8} (h : BeforeZero field part) :
    part.length ≤ field.length := by
  rw [beforeZero_iff.mp h]
  exact (List.takeWhile_prefix _).length_le

/-! ## What is shown of it -/

variable {task task' : Vector UInt8 taskNameLength} {name name' : List UInt8}

/-- `taskName` is what `decodeLossy` reads in the bytes before the first zero. -/
private theorem toList_taskName (h : BeforeZero task.toList name) :
    (taskName task).toList = Utf8.decodeLossy name := by
  rw [taskName, String.toList_ofList, beforeZero_iff.mp h]

/-- No task name holds the character zero. -/
private theorem zero_notMem_taskName (h : BeforeZero task.toList name) :
    '\x00' ∉ (taskName task).toList := by
  rw [toList_taskName h]
  intro hmem
  have hstands := (Utf8.readsAs_decodeLossy name).infix_of_mem hmem (by decide)
  have hbytes : String.utf8EncodeChar '\x00' = [0] := rfl
  rw [hbytes] at hstands
  exact h.1 (hstands.subset List.mem_cons_self)

/-- A name is shown byte for byte exactly if it is UTF-8. -/
private theorem toUTF8_taskName_eq_iff (h : BeforeZero task.toList name) :
    (taskName task).toUTF8.data.toList = name ↔ Utf8.Valid name := by
  rw [toList_toUTF8, toList_taskName h]
  exact Utf8.encode_decodeLossy_eq_self_iff

/-- Names that are UTF-8 are not mixed up. -/
private theorem taskName_inj (h : BeforeZero task.toList name) (h' : BeforeZero task'.toList name')
    (hvalid : Utf8.Valid name) (hvalid' : Utf8.Valid name') (heq : taskName task = taskName task') :
    name = name' := by
  rw [← (toUTF8_taskName_eq_iff h).mpr hvalid, heq, (toUTF8_taskName_eq_iff h').mpr hvalid']

/-- The bytes before the first zero are read as the task name, and as no other text (`ReadsAs`). -/
private theorem readsAs_taskName_iff (h : BeforeZero task.toList name) {text : String} :
    Utf8.ReadsAs name text.toList ↔ text = taskName task := by
  rw [Utf8.readsAs_iff, ← toList_taskName h, String.toList_inj]

/-- `taskName` is the text that the bytes `BeforeZero` are read as (`Utf8.ReadsAs`).  It has no
zero and at most a character for each of these bytes; it has just these bytes if they are
`Utf8.Valid`, so that it tells valid names apart; and otherwise it has a replacement character. -/
theorem taskName_reads_up_to_zero (task : Vector UInt8 taskNameLength) :
    ∃ name, (∀ part, BeforeZero task.toList part ↔ part = name) ∧
      '\x00' ∉ (taskName task).toList ∧
      (taskName task).length ≤ name.length ∧ name.length ≤ 16 ∧
      (Utf8.Valid name ↔ (taskName task).toUTF8.data.toList = name) ∧
      (∀ (task' : Vector UInt8 taskNameLength) (name' : List UInt8),
        BeforeZero task'.toList name' → Utf8.Valid name → Utf8.Valid name' → name ≠ name' →
          taskName task ≠ taskName task') ∧
      (¬Utf8.Valid name → '\ufffd' ∈ (taskName task).toList) ∧
      ∀ text : String, Utf8.ReadsAs name text.toList ↔ text = taskName task := by
  -- The name is the bytes before the first zero, or all of them.
  have h := beforeZero_takeWhile task.toList
  have hreads := (readsAs_taskName_iff h).mpr rfl
  have hlength : (taskName task).length ≤ (task.toList.takeWhile (· ≠ 0)).length := by
    rw [← String.length_toList, toList_taskName h]
    exact Utf8.length_decodeLossy_le _
  refine ⟨_, fun part => beforeZero_iff, zero_notMem_taskName h, hlength, ?_, ?_, ?_, ?_, ?_⟩
  · exact h.length_le.trans_eq task.length_toList
  · exact (toUTF8_taskName_eq_iff h).symm
  · intro task' name' h' hvalid hvalid' hne heq
    exact hne (taskName_inj h h' hvalid hvalid' heq)
  · exact hreads.replacement_mem
  · exact fun text => readsAs_taskName_iff h

/-- The kernel keeps 15 bytes of `postgres: cachée`, and so only half of its `é`. -/
example : taskName #v[112, 111, 115, 116, 103, 114, 101, 115, 58, 32, 99, 97, 99, 104, 0xc3, 0] =
    "postgres: cach\ufffd" := by
  cbv

end EgressControl
