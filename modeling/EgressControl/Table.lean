/-! # Finite tables in key order

A `Table κ α` is a finite map kept as the list of its entries in strictly increasing key
order.  The order is a proof field, so a table is determined by its lookups (`Table.ext_get?`)
and the order in which keys were written leaves no trace.

There is one writing operation, `alter`, which creates or changes the entry of one key;
`get?_alter` says what every later lookup sees.  `erase` takes an entry out again. -/

namespace EgressControl

variable {κ α : Type} [Ord κ]

namespace Table

/-- Entries stand in strictly increasing key order. -/
def Ordered (entries : List (κ × α)) : Prop :=
  entries.Pairwise fun x y => compare x.1 y.1 = .lt

/-- The value stored under a key, in a list of entries. -/
def find? (k : κ) : List (κ × α) → Option α
  | [] => none
  | (j, v) :: rest => if compare k j = .eq then some v else find? k rest

/-- Writes `f` of the present value under `k`, at its place in the order. -/
def alterIn (k : κ) (f : Option α → α) : List (κ × α) → List (κ × α)
  | [] => [(k, f none)]
  | (j, v) :: rest =>
    match compare k j with
    | .lt => (k, f none) :: (j, v) :: rest
    | .eq => (j, f (some v)) :: rest
    | .gt => (j, v) :: alterIn k f rest

/-- What is true of `k` and of all keys of the entries is true of all keys after `alterIn`. -/
private theorem forall_mem_alterIn {P : κ → Prop} {k : κ} {f : Option α → α} {es : List (κ × α)}
    (hk : P k) (h : ∀ e ∈ es, P e.1) : ∀ e ∈ alterIn k f es, P e.1 := by
  induction es with
  | nil => simpa [alterIn] using hk
  | cons e rest ih =>
    obtain ⟨j, v⟩ := e
    have hj : P j := h (j, v) (by simp)
    have hrest : ∀ e ∈ rest, P e.1 := fun e he => h e (List.mem_cons_of_mem _ he)
    -- Each entry of the result has the key `k` or that of an entry of `es`.
    unfold alterIn
    split
    · intro e he
      rcases List.mem_cons.mp he with rfl | he
      · exact hk
      · exact h e he
    · intro e he
      rcases List.mem_cons.mp he with rfl | he
      · exact hj
      · exact hrest e he
    · intro e he
      rcases List.mem_cons.mp he with rfl | he
      · exact hj
      · exact ih hrest e he

/-- `alterIn` keeps the entries in the order of their keys. -/
private theorem ordered_alterIn [Std.TransOrd κ] {k : κ} {f : Option α → α} {es : List (κ × α)}
    (h : Ordered es) : Ordered (alterIn k f es) := by
  induction es with
  | nil => simp [alterIn, Ordered]
  | cons e rest ih =>
    obtain ⟨j, v⟩ := e
    obtain ⟨hj, hrest⟩ := List.pairwise_cons.mp h
    unfold alterIn
    split
    · next hlt =>
      refine List.pairwise_cons.mpr ⟨?_, h⟩
      intro e he
      rcases List.mem_cons.mp he with rfl | he
      · exact hlt
      · exact Std.TransCmp.lt_trans hlt (hj e he)
    · exact List.pairwise_cons.mpr ⟨hj, hrest⟩
    · next hgt =>
      refine List.pairwise_cons.mpr ⟨?_, ih hrest⟩
      -- The head comes before every key of the altered tail, since `k` is after the head.
      exact forall_mem_alterIn (P := fun x => compare j x = .lt)
        (Std.OrientedCmp.lt_of_gt hgt) hj

end Table

/-- A finite map from `κ` to `α`, with its entries in key order. -/
structure Table (κ α : Type) [Ord κ] where
  entries : List (κ × α)
  ordered : Table.Ordered entries

namespace Table

/-- The table without entries. -/
def empty : Table κ α := ⟨[], .nil⟩

instance : Inhabited (Table κ α) := ⟨empty⟩

/-- The value under a key. -/
def get? (t : Table κ α) (k : κ) : Option α := find? k t.entries

/-- Whether a key has an entry. -/
def contains (t : Table κ α) (k : κ) : Bool := (t.get? k).isSome

/-- The number of entries. -/
def size (t : Table κ α) : Nat := t.entries.length

/-- The keys, in increasing order. -/
def keys (t : Table κ α) : List κ := t.entries.map (·.1)

/-- The values, in the order of their keys. -/
def values (t : Table κ α) : List α := t.entries.map (·.2)

/-- The table without the entry of a key. -/
def erase (t : Table κ α) (k : κ) : Table κ α :=
  ⟨t.entries.filter fun e => compare e.1 k ≠ .eq, t.ordered.filter _⟩

variable [Std.TransOrd κ]

/-- Writes `f` of the present value under `k`. -/
def alter (t : Table κ α) (k : κ) (f : Option α → α) : Table κ α :=
  ⟨alterIn k f t.entries, ordered_alterIn t.ordered⟩

/-- Stores a value under a key, replacing what was there. -/
def insert (t : Table κ α) (k : κ) (v : α) : Table κ α := t.alter k fun _ => v

/-- The table of a list of entries; the last entry of a key counts. -/
def ofList (es : List (κ × α)) : Table κ α := es.foldl (fun t e => t.insert e.1 e.2) empty

omit [Std.TransOrd κ] in
/-- A key that comes before all others has no value. -/
private theorem find?_eq_none_of_forall_lt {k : κ} {es : List (κ × α)}
    (h : ∀ e ∈ es, compare k e.1 = .lt) : find? k es = none := by
  induction es with
  | nil => rfl
  | cons e es ih =>
    have he := h e (by simp)
    simp [find?, he, ih fun e he => h e (List.mem_cons_of_mem _ he)]

/-- A key before the head of `Ordered` entries has no value. -/
private theorem find?_cons_of_lt {k i : κ} {v : α} {es : List (κ × α)} (hk : compare k i = .lt)
    (h : ∀ e ∈ es, compare i e.1 = .lt) : find? k ((i, v) :: es) = none := by
  refine find?_eq_none_of_forall_lt fun e he => ?_
  rcases List.mem_cons.mp he with rfl | he
  · exact hk
  · exact Std.TransCmp.lt_trans hk (h e he)

/-- `alterIn` changes the value under its own key, and no other, as long as the entries are
`Ordered`. -/
private theorem find?_alterIn [Std.LawfulEqOrd κ] (k j : κ) (f : Option α → α) {es : List (κ × α)}
    (h : Ordered es) :
    find? j (alterIn k f es) = if compare j k = .eq then some (f (find? k es)) else find? j es := by
  induction es with
  | nil => simp [alterIn, find?]
  | cons e rest ih =>
    obtain ⟨i, v⟩ := e
    obtain ⟨hi, hrest⟩ := List.pairwise_cons.mp h
    -- The split is `alterIn`'s own: before the head, at it, and after it.
    unfold alterIn
    split
    · next hlt =>
      rw [find?_cons_of_lt hlt hi]
      simp [find?]
    · next heq =>
      have : k = i := Std.LawfulEqCmp.eq_of_compare heq
      subst this
      by_cases hj : compare j k = .eq <;> simp [find?, hj]
    · next hgt =>
      have hki : compare k i ≠ .eq := by rw [hgt]; decide
      have hik : k ≠ i := fun h => hki (by rw [h]; exact Std.ReflCmp.compare_self)
      by_cases hj : compare j i = .eq
      · have hji : j = i := Std.LawfulEqCmp.eq_of_compare hj
        have hjk : compare j k ≠ .eq := fun h =>
          hik ((Std.LawfulEqCmp.eq_of_compare h).symm.trans hji)
        simp [find?, hj, hjk]
      · simp [find?, hj, hki, ih hrest]

/-- A write changes what is found under its own key only. -/
theorem get?_alter [Std.LawfulEqOrd κ] (t : Table κ α) (k j : κ) (f : Option α → α) :
    (t.alter k f).get? j = if compare j k = .eq then some (f (t.get? k)) else t.get? j :=
  find?_alterIn k j f t.ordered

omit [Std.TransOrd κ] in
/-- A write leaves the keys as they are, but for its own. -/
private theorem mem_keys_alterIn {k j : κ} {f : Option α → α} {es : List (κ × α)}
    [Std.LawfulEqOrd κ] :
    j ∈ (alterIn k f es).map (·.1) ↔ j = k ∨ j ∈ es.map (·.1) := by
  induction es with
  | nil => simp [alterIn]
  | cons e rest ih =>
    obtain ⟨i, v⟩ := e
    unfold alterIn
    split
    · simp
    · next heq =>
      have : k = i := Std.LawfulEqCmp.eq_of_compare heq
      simp [this]
    · simp only [List.map_cons, List.mem_cons, ih]
      -- `k` comes into the tail, behind the head's key.
      exact or_left_comm

/-- `alterIn` adds an entry exactly if its key had no value. -/
private theorem length_alterIn {k : κ} {f : Option α → α} {es : List (κ × α)} (h : Ordered es) :
    (alterIn k f es).length = if (find? k es).isSome then es.length else es.length + 1 := by
  induction es with
  | nil => simp [alterIn, find?]
  | cons e rest ih =>
    obtain ⟨i, v⟩ := e
    obtain ⟨hi, hrest⟩ := List.pairwise_cons.mp h
    -- A new key is put before the head, a present one replaces it, and the rest is the
    -- tail's.
    unfold alterIn
    split
    · next hlt =>
      simp [find?_cons_of_lt hlt hi]
    · next heq => simp [find?, heq]
    · next hgt =>
      have hne : ¬compare k i = .eq := by rw [hgt]; decide
      simp only [find?, hne, if_false, List.length_cons, ih hrest]
      split <;> rfl

omit [Std.TransOrd κ] in
/-- Exactly the keys of the entries have a value. -/
private theorem find?_isSome_iff [Std.LawfulEqOrd κ] {k : κ} {es : List (κ × α)} :
    (find? k es).isSome = true ↔ k ∈ es.map (·.1) := by
  induction es with
  | nil => simp [find?]
  | cons e rest ih =>
    obtain ⟨i, v⟩ := e
    by_cases h : compare k i = .eq
    · have : k = i := Std.LawfulEqCmp.eq_of_compare h
      simp [find?, this]
    · have : k ≠ i := fun hk => h (by rw [hk]; exact Std.ReflCmp.compare_self)
      simp [find?, h, ih, this]

omit [Std.TransOrd κ] in
@[simp] theorem get?_empty (k : κ) : (empty : Table κ α).get? k = none := rfl

/-- After a value has been stored, it is found under its key, and all else as before. -/
theorem get?_insert [Std.LawfulEqOrd κ] (t : Table κ α) (k j : κ) (v : α) :
    (t.insert k v).get? j = if compare j k = .eq then some v else t.get? j :=
  get?_alter t k j _

omit [Std.TransOrd κ] in
/-- A key has an entry exactly if it is listed. -/
theorem contains_iff [Std.LawfulEqOrd κ] {t : Table κ α} {k : κ} :
    t.contains k = true ↔ k ∈ t.keys := find?_isSome_iff

omit [Std.TransOrd κ] in
/-- No key is listed twice. -/
theorem nodup_keys [Std.LawfulEqOrd κ] (t : Table κ α) : t.keys.Nodup := by
  refine List.pairwise_map.mpr (t.ordered.imp ?_)
  intro e f hlt heq
  have hself : compare e.1 e.1 = .eq := Std.ReflCmp.compare_self
  rw [← heq, hself] at hlt
  simp at hlt

omit [Std.TransOrd κ] in
/-- In `Ordered` entries a key is found with its own value and with no other. -/
private theorem find?_eq_some_iff [Std.LawfulEqOrd κ] {k : κ} {v : α} {es : List (κ × α)}
    (h : Ordered es) : find? k es = some v ↔ (k, v) ∈ es := by
  induction es with
  | nil => simp [find?]
  | cons e rest ih =>
    obtain ⟨j, w⟩ := e
    obtain ⟨hj, hrest⟩ := List.pairwise_cons.mp h
    by_cases hk : k = j
    · -- The key stands at the front, and nowhere else.
      subst hk
      have hnot : (k, v) ∉ rest := fun hin => by
        have hlt := hj (k, v) hin
        simp at hlt
      simp [find?, hnot, eq_comm]
    · have hne : compare k j ≠ .eq := fun heq => hk (Std.LawfulEqCmp.eq_of_compare heq)
      simp [find?, hne, hk, ih hrest]

omit [Std.TransOrd κ] in
/-- What is found under a key is the entry with this key. -/
theorem get?_eq_some_iff [Std.LawfulEqOrd κ] {t : Table κ α} {k : κ} {v : α} :
    t.get? k = some v ↔ (k, v) ∈ t.entries := find?_eq_some_iff t.ordered

/-- `alter` adds its key to the `keys`, and nothing else. -/
theorem mem_keys_alter [Std.LawfulEqOrd κ] {t : Table κ α} {k j : κ} {f : Option α → α} :
    j ∈ (t.alter k f).keys ↔ j = k ∨ j ∈ t.keys := mem_keys_alterIn

/-- `insert` adds its key, and no other. -/
theorem contains_insert [Std.LawfulEqOrd κ] {t : Table κ α} {k j : κ} {v : α} :
    (t.insert k v).contains j = true ↔ j = k ∨ t.contains j = true := by
  rw [contains_iff, contains_iff]
  exact mem_keys_alter

omit [Std.TransOrd κ] in
/-- Erasing takes one key out, and no other. -/
theorem contains_erase [Std.LawfulEqOrd κ] {t : Table κ α} {k j : κ} :
    (t.erase k).contains j = true ↔ j ≠ k ∧ t.contains j = true := by
  rw [contains_iff, contains_iff]
  simp only [keys, erase, List.mem_map, List.mem_filter, Std.LawfulEqCmp.compare_eq_iff_eq,
    decide_eq_true_eq, ne_eq]
  constructor
  · rintro ⟨e, ⟨he, hne⟩, rfl⟩
    exact ⟨hne, e, he, rfl⟩
  · rintro ⟨hne, e, he, rfl⟩
    exact ⟨e, ⟨he, hne⟩, rfl⟩

/-- A write adds an entry if there is none under its key. -/
theorem size_alter (t : Table κ α) (k : κ) (f : Option α → α) :
    (t.alter k f).size = if t.contains k then t.size else t.size + 1 := length_alterIn t.ordered

/-- `Ordered` entries in which the same values are found are the same. -/
private theorem eq_of_find?_eq [Std.LawfulEqOrd κ] {es fs : List (κ × α)} (he : Ordered es)
    (hf : Ordered fs) (h : ∀ k, find? k es = find? k fs) : es = fs := by
  induction es generalizing fs with
  | nil =>
    match fs with
    | [] => rfl
    | (j, w) :: _ => have := h j; simp [find?] at this
  | cons e es ih =>
    obtain ⟨i, v⟩ := e
    match fs with
    | [] => have := h i; simp [find?] at this
    | (j, w) :: fs =>
      obtain ⟨hi, hes⟩ := List.pairwise_cons.mp he
      obtain ⟨hj, hfs⟩ := List.pairwise_cons.mp hf
      -- The heads have one key: the smaller of two would have a value on one side and none
      -- on the other.
      have hij : compare i j = .eq := by
        rcases hc : compare i j with _ | _ | _
        · have := h i
          rw [find?_cons_of_lt hc hj] at this
          simp [find?] at this
        · rfl
        · have hc' := Std.OrientedCmp.lt_of_gt hc
          have := h j
          rw [find?_cons_of_lt hc' hi] at this
          simp [find?] at this
      have hkey : i = j := Std.LawfulEqCmp.eq_of_compare hij
      subst hkey
      have hval : v = w := by simpa [find?] using h i
      subst hval
      congr 1
      -- The tails answer as the whole lists do, but at the head's key, where both answer
      -- `none`.
      refine ih hes hfs fun k => ?_
      by_cases hk : compare k i = .eq
      · have : k = i := Std.LawfulEqCmp.eq_of_compare hk
        subst this
        rw [find?_eq_none_of_forall_lt hi, find?_eq_none_of_forall_lt hj]
      · simpa [find?, hk] using h k

/-- Tables with the same lookups are equal. -/
theorem ext_get? [Std.LawfulEqOrd κ] {t u : Table κ α} (h : ∀ k, t.get? k = u.get? k) : t = u := by
  obtain ⟨es, he⟩ := t
  obtain ⟨fs, hf⟩ := u
  have : es = fs := eq_of_find?_eq he hf h
  subst this
  rfl

/-- Two writes can be exchanged, if under one key they come to the same in either order. -/
theorem alter_comm [Std.LawfulEqOrd κ] {t : Table κ α} {k j : κ} {f g : Option α → α}
    (h : k = j → ∀ o, g (some (f o)) = f (some (g o))) :
    (t.alter k f).alter j g = (t.alter j g).alter k f := by
  refine ext_get? fun i => ?_
  simp only [get?_alter, Std.LawfulEqCmp.compare_eq_iff_eq]
  -- Under one key the hypothesis applies; under two, each write leaves the other's value.
  by_cases hkj : k = j
  · subst hkj
    by_cases hi : i = k
    · simp [hi, h rfl]
    · simp [hi]
  · by_cases hi : i = k
    · subst hi
      simp [hkj]
    · simp [hi, Ne.symm hkj]

/-- Of entries with different keys each one counts, whatever was stored before. -/
private theorem get?_foldl_insert [Std.LawfulEqOrd κ] {es : List (κ × α)} (h : (es.map (·.1)).Nodup)
    (t : Table κ α) {k : κ} {v : α} :
    (es.foldl (fun t e => t.insert e.1 e.2) t).get? k = some v ↔
      (k, v) ∈ es ∨ k ∉ es.map (·.1) ∧ t.get? k = some v := by
  induction es generalizing t with
  | nil => simp
  | cons e es ih =>
    rw [List.map_cons, List.nodup_cons] at h
    have hfirst : (e.1, v) ∈ es → e.1 ∈ es.map (·.1) := fun hv => List.mem_map.mpr ⟨_, hv, rfl⟩
    simp only [List.foldl_cons, ih h.2, get?_insert, Std.LawfulEqCmp.compare_eq_iff_eq]
    by_cases hk : k = e.1
    · -- The entry itself is the only one with its key.
      subst hk
      have hmem : (e.1, v) ∈ e :: es ↔ e.2 = v := by
        constructor
        · intro hv
          rcases List.mem_cons.mp hv with hv | hv
          · rw [← hv]
          · exact absurd (hfirst hv) h.1
        · rintro rfl
          exact List.mem_cons_self
      simp [hmem, h.1, mt hfirst h.1]
    · have hne : (k, v) ≠ e := fun heq => hk (by rw [← heq])
      simp [hk, hne]

/-- Entries with different keys make a table, in whatever order they stand. -/
theorem ofList_of_perm [Std.LawfulEqOrd κ] {es : List (κ × α)} {t : Table κ α}
    (h : es.Perm t.entries) : ofList es = t := by
  have hkeys : (es.map (·.1)).Nodup := (h.map _).nodup_iff.mpr t.nodup_keys
  refine ext_get? fun k => Option.ext fun v => ?_
  rw [ofList, get?_foldl_insert hkeys, h.mem_iff, ← get?_eq_some_iff]
  simp

end Table

end EgressControl
