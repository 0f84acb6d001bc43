import Mathlib.Data.List.Forall2
import Mathlib.Data.List.Nodup
import EgressControl.Json.Shape
import EgressControl.Proofs.Json.RoundTrip

/-!
# Typed content, written and read

Text, numbers, lists and tables are read back from the values as which they are written.  A
structure is read from every object that has its fields (`Value.Extends`): their order is free, and
members with other keys do not count (`Value.fields?_of_extends`).
-/

namespace EgressControl.Json

open Text (Decimal.isDigit_of_mem Decimal.eq_zero_of_head?_toDigits)

/-! ## Whole numbers -/

/-- The whole part of a number goes on with digits. -/
private theorem foldlM_next_whole {cs : List Char} (h : ∀ c ∈ cs, c.isDigit = true) :
    cs.foldlM NumberPart.next .whole = some .whole := by
  induction cs with
  | nil => rfl
  | cons c cs ih =>
    obtain ⟨hc, hcs⟩ := List.forall_mem_cons.mp h
    have hnext : NumberPart.next .whole c = some .whole := by simp [NumberPart.next, hc]
    rw [List.foldlM_cons, hnext]
    exact ih hcs

/-- A whole number is written as a number. -/
private theorem isNumber_repr (n : Nat) : IsNumber n.repr := by
  -- Zero is a number of its own in the grammar; any other starts with a digit other than
  -- zero.
  by_cases hn : n = 0
  · subst hn
    exact ⟨'0', [], .zero, .zero, rfl, rfl, rfl, rfl⟩
  · obtain ⟨c, cs, hcs⟩ := List.exists_cons_of_ne_nil (Nat.toDigits_ne_nil (b := 10) (n := n))
    have hdigits : ∀ d ∈ c :: cs, d.isDigit = true := fun d hd =>
      Decimal.isDigit_of_mem (n := n) (hcs ▸ hd)
    obtain ⟨hc, hrest⟩ := List.forall_mem_cons.mp hdigits
    have hzero : c ≠ '0' := fun h => hn (Decimal.eq_zero_of_head?_toDigits (by rw [hcs, h]; rfl))
    have hminus : c ≠ '-' := fun h => by
      rw [h] at hc
      contradiction
    refine ⟨c, cs, .whole, .whole, by simp [hcs], ?_, foldlM_next_whole hrest, rfl⟩
    rw [NumberPart.start?, if_neg hminus, if_neg hzero, if_pos hc]

namespace Value

@[simp] theorem required_some {α : Type} (read : Value → Option α) (v : Value) :
    required read (some v) = read v := rfl

@[simp] theorem asText?_text (s : String) : asText? (text s) = some s := rfl

@[simp] theorem asBool?_bool (b : Bool) : asBool? (bool b) = some b := rfl

/-- A number below the `limit` is read back. -/
theorem asNat?_nat {n limit : Nat} (h : n < limit) : asNat? limit (nat n) = some n := by
  have hdigits : (Nat.toDigits 10 n).all Char.isDigit = true :=
    List.all_eq_true.mpr fun c hc => Decimal.isDigit_of_mem hc
  simp [asNat?, nat, hdigits, h]

/-! ## Lists and tables -/

/-- `mapM` succeeds if `f` does on each element. -/
theorem mapM_of_forall₂ {α β : Type} {f : β → Option α} {xs : List α} {ys : List β}
    (h : List.Forall₂ (fun x y => f y = some x) xs ys) : ys.mapM f = some xs := by
  induction h with
  | nil => rfl
  | cons hy _ ih => simp [hy, ih]

/-- `mapM` undoes a `map` whose values are read back one by one. -/
private theorem mapM_map {α β : Type} {f : β → Option α} {g : α → β} {xs : List α}
    (h : ∀ x ∈ xs, f (g x) = some x) : (xs.map g).mapM f = some xs :=
  mapM_of_forall₂ (List.forall₂_map_right_iff.mpr (List.forall₂_same.mpr h))

@[simp] theorem asList_texts (ss : List String) : asList asText? (texts ss) = some ss :=
  mapM_map fun _ _ => rfl

@[simp] theorem optional_optionalText (o : Option String) :
    optional asText? (some (optionalText o)) = some o := by
  cases o <;> rfl

/-- A table of texts is the object of its entries, in their order. -/
theorem textTable_eq (t : Table String String) :
    textTable t = record (t.entries.map fun e => (e.1, text e.2)) := by
  rw [textTable, record, List.map_map]
  rfl

/-- A table of texts is read from its members in whatever order they stand. -/
theorem asTable_of_perm {es : List (String × String)} {t : Table String String}
    (h : es.Perm t.entries) :
    asTable asText? (record (es.map fun e => (e.1, text e.2))) = some t := by
  have hes : ((es.map fun e => (e.1, text e.2)).map fun m => (some m.1, m.2)).mapM
      (asEntry asText?) = some es := by
    rw [List.map_map]
    exact mapM_map fun _ _ => rfl
  rw [record, asTable, hes, Option.map_some, Table.ofList_of_perm h]

/-! ## Structures -/

/-- A value without parts. -/
def IsScalar : Value → Prop
  | array _ | object _ => False
  | _ => True

/-- A value that has the members of an object in any order, and others anywhere between them: each
of the others is a scalar and has another key. -/
def Extends (v object : Value) : Prop :=
  ∃ fields members others, object = record fields ∧ v = record members ∧
    members.Perm (fields ++ others) ∧ ∀ m ∈ others, m.1 ∉ fields.map (·.1) ∧ m.2.IsScalar

/-- An object extends itself. -/
theorem extends_record (fields : List (String × Value)) : (record fields).Extends (record fields) :=
  ⟨fields, fields, [], rfl, rfl, by simp, by simp⟩

/-- Objects with the same members in the same order are the same. -/
private theorem record_inj {fields fields' : List (String × Value)} :
    record fields = record fields' ↔ fields = fields' := by
  have hmember : Function.Injective fun m : String × Value => (some m.1, m.2) := by
    intro m m' h
    obtain ⟨hkey, hcontent⟩ := Prod.mk.inj h
    exact Prod.ext (Option.some.inj hkey) hcontent
  simp only [record, object.injEq]
  exact List.map_inj_right hmember

/-- A member is found if it is the only one with its key. -/
private theorem only?_of_perm {k : String} {v : Value}
    {members fields others : List (String × Value)}
    (h : members.Perm (fields ++ others)) (hfields : (fields.map (·.1)).Nodup)
    (hmem : (k, v) ∈ fields) (hothers : k ∉ others.map (·.1)) :
    only? k (members.map fun m => (some m.1, m.2)) = some (some v) := by
  obtain ⟨before, after, rfl⟩ := List.append_of_mem hmem
  have hother (ms : List (String × Value)) (hms : k ∉ ms.map (·.1)) :
      ms.filter (·.1 = k) = [] := by
    rw [List.filter_eq_nil_iff]
    intro m hm hk
    exact hms (List.mem_map.mpr ⟨m, hm, by simpa using hk⟩)
  rw [List.map_append, List.map_cons, List.nodup_append, List.nodup_cons] at hfields
  have hbefore : k ∉ before.map (·.1) := fun hk => hfields.2.2 k hk k List.mem_cons_self rfl
  -- The filter keeps the member itself and nothing before, after or beside it.
  have hall : members.filter (·.1 = k) = [(k, v)] := by
    apply List.perm_singleton.mp
    simpa [hother before hbefore, hother after hfields.2.1.1, hother others hothers] using
      h.filter (·.1 = k)
  have hfilter : (members.map fun m => (some m.1, m.2)).filter (·.1 = some k) =
      [(some k, v)] := by
    rw [List.filter_map]
    simpa [Function.comp_def] using congrArg (List.map fun m => (some m.1, m.2)) hall
  simp only [only?, hfilter]

/-- The fields of a structure are found in every value that has them. -/
theorem fields?_of_extends {v : Value} {names : List String} {fields : List (String × Value)}
    (h : v.Extends (record fields)) (hnames : fields.map (·.1) = names) (hnodup : names.Nodup) :
    v.fields? names = some (fields.map fun f => some f.2) := by
  obtain ⟨fields', members, others, heq, rfl, hperm, hothers⟩ := h
  obtain rfl := record_inj.mp heq
  subst hnames
  -- Keys that are no Unicode are `none`, and no written record has one.
  have hkeys : (members.map fun m => (some m.1, m.2)).all (·.1.isSome) = true := by simp
  show (if _ then _ else none) = _
  rw [if_pos hkeys]
  apply mapM_of_forall₂
  rw [List.forall₂_map_left_iff, List.forall₂_map_right_iff, List.forall₂_same]
  intro f hf
  apply only?_of_perm hperm hnodup hf
  intro hk
  obtain ⟨m, hm, heq⟩ := List.mem_map.mp hk
  exact (hothers m hm).1 (List.mem_map.mpr ⟨f, hf, heq.symm⟩)

/-! ## Validity -/

@[simp] theorem valid_null : null.Valid := by simp [Valid, tokens]

@[simp] theorem valid_bool (b : Bool) : (bool b).Valid := by simp [Valid, tokens]

@[simp] theorem valid_text (s : String) : (text s).Valid := by simp [Valid, text, tokens]

@[simp] theorem valid_nat (n : Nat) : (nat n).Valid := valid_number.mpr (isNumber_repr n)

@[simp] theorem valid_texts (ss : List String) : (texts ss).Valid := by simp [texts]

@[simp] theorem valid_optionalText (o : Option String) : (optionalText o).Valid := by
  cases o <;> simp [optionalText]

@[simp] theorem valid_record {fields : List (String × Value)} :
    (record fields).Valid ↔ ∀ f ∈ fields, f.2.Valid := by
  rw [record, valid_object, List.forall_mem_map]

@[simp] theorem valid_textTable (t : Table String String) : (textTable t).Valid := by
  rw [textTable_eq, valid_record, List.forall_mem_map]
  exact fun _ _ => valid_text _

end EgressControl.Json.Value
