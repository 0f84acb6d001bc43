import EgressControl.Proofs.Text.Decimal
import EgressControl.Text.Column
import EgressControl.Text.Split
import Mathlib.Algebra.Ring.Nat

/-!
# Texts that are made of lines

Lines with a line feed behind each of them are found again by cutting at line feeds, and behind the
last one there is nothing; but only if none of them has a line feed of its own
(`cut_unlines_eq_iff`).  All the line feeds of such a text are known (`lineFeeds_unlines`).
-/

namespace EgressControl.Text

/-- The number of line feeds in a text. -/
def lineFeeds (s : String) : Nat := s.toList.count '\n'

/-- `lineFeeds` counts none exactly if there is none. -/
theorem lineFeeds_eq_zero_iff {s : String} : lineFeeds s = 0 ↔ '\n' ∉ s.toList :=
  List.count_eq_zero

/-- The line feeds in two texts add up. -/
@[simp] theorem lineFeeds_append (s t : String) :
    lineFeeds (s ++ t) = lineFeeds s + lineFeeds t := by
  simp [lineFeeds]

/-- Padding adds no line feeds. -/
@[simp] theorem lineFeeds_padRight (width : Nat) (s : String) :
    lineFeeds (padRight width s) = lineFeeds s := by
  simp [padRight, lineFeeds, List.count_replicate]

/-- Padding adds no line feeds. -/
@[simp] theorem lineFeeds_padLeft (width : Nat) (s : String) :
    lineFeeds (padLeft width s) = lineFeeds s := by
  simp [padLeft, lineFeeds, List.count_replicate]

/-- There is no line feed in a number. -/
@[simp] theorem lineFeeds_repr (n : Nat) : lineFeeds n.repr = 0 := by
  rw [lineFeeds_eq_zero_iff]
  intro hfeed
  have hdigit : '\n'.isDigit = true := Decimal.isDigit_of_mem (n := n) (by simpa using hfeed)
  exact absurd hdigit (by decide)

/-- The line feeds in texts that are joined add up, if what is put between them has none. -/
theorem lineFeeds_intercalate (s : String) (ts : List String) (h : lineFeeds s = 0) :
    lineFeeds (s.intercalate ts) = (ts.map lineFeeds).sum := by
  induction ts with
  | nil => rw [String.intercalate_nil]; rfl
  | cons t ts ih =>
    cases ts with
    | nil => rw [String.intercalate_singleton]; simp
    | cons u ts =>
      rw [String.intercalate_cons_cons, lineFeeds_append, lineFeeds_append, h, ih]
      simp

/-- Lines with a line feed behind each of them. -/
def unlines (ls : List String) : String := String.join (ls.map (· ++ "\n"))

/-- `unlines` ends each line with a line feed. -/
theorem unlines_cons (l : String) (ls : List String) :
    unlines (l :: ls) = l ++ "\n" ++ unlines ls := String.join_cons

/-- The line feeds of `unlines` are those within the lines, and one for each of them. -/
theorem lineFeeds_unlines (ls : List String) :
    lineFeeds (unlines ls) = ls.length + (ls.map lineFeeds).sum := by
  induction ls with
  | nil => rfl
  | cons l ls ih =>
    have hfeed : lineFeeds "\n" = 1 := rfl
    rw [unlines_cons, lineFeeds_append, lineFeeds_append, hfeed, ih]
    simp only [List.length_cons, List.map_cons, List.sum_cons]
    omega

/-- A text is cut into one piece more than it has separators. -/
private theorem length_cut (sep : Char → Bool) (cs : List Char) :
    (cut sep cs).length = cs.countP sep + 1 := by
  induction cs with
  | nil => rfl
  | cons c cs ih =>
    rw [cut, List.countP_cons]
    split
    · rw [List.length_cons, ih]
    · rw [List.length_modifyHead, ih]

/-- The lines are found again exactly if none of them can be taken for several ones. -/
theorem cut_unlines_eq_iff (ls : List String) :
    cut (· = '\n') (unlines ls).toList = ls.map String.toList ++ [[]] ↔
      ∀ l ∈ ls, '\n' ∉ l.toList := by
  constructor
  · intro h l hl
    -- A line feed in a line would make one piece more than there are lines.
    have hpieces : lineFeeds (unlines ls) + 1 = ls.length + 1 := by
      have hlength := congrArg List.length h
      rwa [length_cut, List.length_append, List.length_map] at hlength
    have hnone : (ls.map lineFeeds).sum = 0 := by
      have hcount := lineFeeds_unlines ls
      omega
    rw [← lineFeeds_eq_zero_iff]
    exact List.sum_eq_zero_iff_forall_eq_nat.mp hnone _ (List.mem_map.mpr ⟨l, hl, rfl⟩)
  · intro h
    induction ls with
    | nil => rfl
    | cons l ls ih =>
      obtain ⟨hl, hls⟩ := List.forall_mem_cons.mp h
      have htext : (unlines (l :: ls)).toList = l.toList ++ '\n' :: (unlines ls).toList := by
        simp [unlines_cons]
      rw [htext, cut_append_cons (by decide), cut_of_notMem hl, ih hls]
      rfl

end EgressControl.Text
