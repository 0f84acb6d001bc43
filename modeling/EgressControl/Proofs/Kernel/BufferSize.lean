import EgressControl.Kernel.Perf
import Mathlib.Order.Bounds.Basic

/-!
# The size of a perf buffer

A power of two has room for some bytes exactly if it is no less than the number of pages that
`pageCount` gives for them (`pageCount_le_iff`).  All else follows from this: there is room in the
pages, there is none in fewer, and for more bytes there are no fewer pages.

No word overflows on the way to this number (`checkedPageCount_eq`), and no buffer is refused
because of it (`openFeed_ne_pageCount`).  `pageCount_least_power_of_two` puts this together.
-/

namespace EgressControl.Perf

/-! ## Powers of two -/

/-- `powerOfTwoFrom` gives powers of two only. -/
private theorem isPowerOfTwo_powerOfTwoFrom (n : Nat) : (powerOfTwoFrom n).isPowerOfTwo := by
  unfold powerOfTwoFrom
  split
  · exact Nat.isPowerOfTwo_one
  · exact ⟨_, Nat.one_shiftLeft _⟩

/-- The powers of two from `powerOfTwoFrom n` on are those from `n` on. -/
private theorem powerOfTwoFrom_le_iff {n p : Nat} (hp : p.isPowerOfTwo) :
    powerOfTwoFrom n ≤ p ↔ n ≤ p := by
  have hpos := Nat.pos_of_isPowerOfTwo hp
  obtain ⟨k, rfl⟩ := hp
  unfold powerOfTwoFrom
  split
  · next hn => exact iff_of_true hpos (Nat.le_trans hn hpos)
  · next hn =>
    -- Both sides say how many binary digits `n - 1` has at most.
    rw [Nat.one_shiftLeft, Nat.pow_le_pow_iff_right (by decide), Nat.succ_le_iff,
      Nat.log2_lt (by omega)]
    omega

/-! ## Pages -/

private theorem toNat_pageSize : pageSize.toNat = 4096 := rfl

/-- The greater one of a word and 1 is that of their numbers. -/
private theorem toNat_max_one (w : UInt64) : (max w 1).toNat = max w.toNat 1 := by
  have hword : max w 1 = if w ≤ 1 then 1 else w := rfl
  have hle : w ≤ 1 ↔ w.toNat ≤ 1 := UInt64.le_iff_toNat_le
  rw [hword]
  split
  · next h => rw [Nat.max_eq_right (hle.mp h), UInt64.toNat_one]
  · next h => rw [Nat.max_eq_left (Nat.le_of_not_le (mt hle.mpr h))]

/-- `pagesFor` rounds the bytes up to whole pages of 4096 bytes, and gives one page at least. -/
private theorem toNat_pagesFor (bytes : UInt64) :
    (pagesFor bytes).toNat = max ((bytes.toNat + 4095) / 4096) 1 := by
  have hbytes := bytes.toNat_lt
  have hmod : bytes % pageSize = 0 ↔ bytes.toNat % 4096 = 0 := by
    rw [← UInt64.toNat_inj, UInt64.toNat_mod, toNat_pageSize]
    rfl
  rw [pagesFor, toNat_max_one]
  simp only [hmod]
  split
  · rw [UInt64.toNat_div, toNat_pageSize]
    omega
  · -- There is a word for one page more.
    rw [UInt64.toNat_add, UInt64.toNat_div, toNat_pageSize, UInt64.toNat_one]
    omega

/-- The pages for some bytes fit into a number of pages exactly if the bytes do. -/
private theorem toNat_pagesFor_le_iff {bytes : UInt64} {p : Nat} (hp : 0 < p) :
    (pagesFor bytes).toNat ≤ p ↔ bytes.toNat ≤ 4096 * p := by
  rw [toNat_pagesFor]
  omega

/-- The number of pages is a word, for there are `4096` bytes in each of them. -/
private theorem powerOfTwoFrom_pagesFor_lt (bytes : UInt64) :
    powerOfTwoFrom (pagesFor bytes).toNat < UInt64.size := by
  have hbytes := bytes.toNat_lt
  have hpower : (4503599627370496 : Nat).isPowerOfTwo := ⟨52, rfl⟩
  have hle : powerOfTwoFrom (pagesFor bytes).toNat ≤ 4503599627370496 := by
    rw [powerOfTwoFrom_le_iff hpower, toNat_pagesFor_le_iff (by decide)]
    omega
  exact Nat.lt_of_le_of_lt hle (by decide)

/-- `pageCount` is the first power of two from `pagesFor` on, and fits a word. -/
private theorem toNat_pageCount (bytes : UInt64) :
    (pageCount bytes).toNat = powerOfTwoFrom (pagesFor bytes).toNat :=
  UInt64.toNat_ofNat_of_lt (powerOfTwoFrom_pagesFor_lt bytes)

/-- `pageCount` is a power of two. -/
private theorem isPowerOfTwo_pageCount (bytes : UInt64) : (pageCount bytes).toNat.isPowerOfTwo := by
  rw [toNat_pageCount]
  exact isPowerOfTwo_powerOfTwoFrom _

/-- The powers of two from the number of pages on are those that have room for the bytes. -/
theorem pageCount_le_iff {bytes : UInt64} {p : Nat} (hp : p.isPowerOfTwo) :
    (pageCount bytes).toNat ≤ p ↔ bytes.toNat ≤ 4096 * p := by
  rw [toNat_pageCount, powerOfTwoFrom_le_iff hp, toNat_pagesFor_le_iff (Nat.pos_of_isPowerOfTwo hp)]

/-- There is room for the bytes in as many pages as `pageCount` says. -/
private theorem le_mul_pageCount (bytes : UInt64) : bytes.toNat ≤ 4096 * (pageCount bytes).toNat :=
  (pageCount_le_iff (isPowerOfTwo_pageCount bytes)).mp (Nat.le_refl _)

/-! ## Words that may overflow -/

/-- The word that follows, unless it would overflow. -/
def checkedSucc (w : UInt64) : Option UInt64 :=
  if w.toNat + 1 < UInt64.size then some (w + 1) else none

/-- The least power of two from a word on, unless it is no word. -/
def checkedPower (w : UInt64) : Option UInt64 :=
  if powerOfTwoFrom w.toNat < UInt64.size then some (.ofNat (powerOfTwoFrom w.toNat)) else none

/-- The number of pages, given up at the first word that overflows. -/
def checkedPageCount (bytes : UInt64) : Option UInt64 :=
  let whole := bytes / pageSize
  (if bytes % pageSize = 0 then some whole else checkedSucc whole).bind fun pages =>
    checkedPower (max pages 1)

/-- `checkedPageCount`, in which every operation is checked, finds no overflow. -/
theorem checkedPageCount_eq (bytes : UInt64) : checkedPageCount bytes = some (pageCount bytes) := by
  have hbytes := bytes.toNat_lt
  -- A quotient by the page size leaves room for one more page.
  have hsucc : checkedSucc (bytes / pageSize) = some (bytes / pageSize + 1) := by
    apply if_pos
    rw [UInt64.toNat_div, toNat_pageSize, UInt64.size]
    omega
  have hpages : (if bytes % pageSize = 0 then some (bytes / pageSize)
      else checkedSucc (bytes / pageSize)).map (max · 1) = some (pagesFor bytes) := by
    rw [hsucc, pagesFor]
    split <;> rfl
  obtain ⟨pages, hfound, hmax⟩ := Option.map_eq_some_iff.mp hpages
  rw [checkedPageCount, hfound, Option.bind_some, hmax]
  exact if_pos (powerOfTwoFrom_pagesFor_lt bytes)

/-! ## Opening -/

/-- To list the processors never fails because of a number of pages. -/
private theorem inUse_ne_pageCount {k : Kernel} {count : Nat} :
    Processors.inUse k ≠ .error (.pageCount count) := by
  unfold Processors.inUse
  repeat' split
  all_goals simp [Processors.missingError, Processors.malformedError]

/-- No buffer is refused because of its pages if they are a power of two. -/
private theorem openBuffer_ne_pageCount {k : Kernel} {m : KernelMap} {pages : UInt64}
    {cpu count : Nat}
    (h : pages.toNat.isPowerOfTwo) : openBuffer k m pages cpu ≠ .error (.pageCount count) := by
  unfold openBuffer
  rw [if_neg (not_not.mpr h)]
  repeat' split
  all_goals simp

/-- None of the buffers is refused because of its pages if they are a power of two. -/
private theorem openBuffers_ne_pageCount {k : Kernel} {m : KernelMap} {pages : UInt64} {count : Nat}
    (h : pages.toNat.isPowerOfTwo) (cpus : List Nat) :
    openBuffers k m pages cpus ≠ .error (.pageCount count) := by
  induction cpus generalizing m with
  | nil => simp [openBuffers]
  | cons cpu cpus ih =>
    rw [openBuffers]
    split
    · next e hopen =>
      intro heq
      exact openBuffer_ne_pageCount h (hopen.trans heq)
    · exact ih

/-- No feed is refused because of its pages, whatever number of bytes is asked for. -/
theorem openFeed_ne_pageCount (k : Kernel) (name : String) (m : KernelMap) (bytes : UInt64)
    (count : Nat) : (openFeed k name m bytes).2 ≠ .error (.pageCount count) := by
  rw [openFeed]
  split
  · simp
  · split
    · next e hcpus =>
      -- The list of processors fails in words of its own.
      intro heq
      obtain rfl := Except.error.inj heq
      exact inUse_ne_pageCount hcpus
    · next cpus hcpus =>
      dsimp only
      split
      · next e hopen =>
        intro heq
        obtain rfl := Except.error.inj heq
        exact openBuffers_ne_pageCount (isPowerOfTwo_pageCount bytes) cpus hopen
      · simp

/-! ## The size of buffers -/

/-- The numbers of pages that a buffer for some bytes may have: powers of two with room for them. -/
def fittingCounts (bytes : Nat) : Set Nat := {pages | pages.isPowerOfTwo ∧ bytes ≤ 4096 * pages}

/-- How buffers are sized. -/
structure SizesBuffers : Prop where
  /-- The number of pages can be computed for all bytes, and no word overflows. -/
  computed : ∀ bytes, checkedPageCount bytes = some (pageCount bytes)
  /-- It is the least that fits. -/
  least : ∀ bytes, IsLeast (fittingCounts bytes.toNat) (pageCount bytes).toNat
  /-- For more bytes there are no fewer pages. -/
  mono : ∀ bytes more, bytes ≤ more → pageCount bytes ≤ pageCount more
  /-- A buffer is refused because of its pages if they are no power of two, and never otherwise. -/
  refused : ∀ k m pages cpu, ¬pages.toNat.isPowerOfTwo →
    openBuffer k m pages cpu = .error (.pageCount pages.toNat)
  accepted : ∀ k name m bytes count, (openFeed k name m bytes).2 ≠ .error (.pageCount count)

/-- `pageCount` is the least power of two whose pages have room for the bytes, is computed without
overflow, grows with the bytes, and is never refused. -/
theorem pageCount_least_power_of_two : SizesBuffers where
  computed := checkedPageCount_eq
  least bytes := by
    refine ⟨⟨isPowerOfTwo_pageCount bytes, le_mul_pageCount bytes⟩, ?_⟩
    rintro pages ⟨hpower, hroom⟩
    exact (pageCount_le_iff hpower).mpr hroom
  mono bytes more hle := by
    rw [UInt64.le_iff_toNat_le] at hle ⊢
    rw [pageCount_le_iff (isPowerOfTwo_pageCount more)]
    exact Nat.le_trans hle (le_mul_pageCount more)
  refused k m pages cpu hpower := if_pos hpower
  accepted := openFeed_ne_pageCount

/-- A byte more than sixteen pages, and all that can be asked for. -/
example : pageCount 65537 = 32 ∧ pageCount 18446744073709551615 = 4503599627370496 := by
  decide +kernel

end EgressControl.Perf
