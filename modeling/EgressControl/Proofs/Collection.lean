import EgressControl.Collection

/-!
# What can go wrong with a collection

A map that is lent or taken out of a collection is there, or the failure names the map
(`lend_error`, `take_error`).  Whatever is taken out, a collection keeps the path of the object
file from which it was loaded (`path_of_load`, `path_of_take`).
-/

namespace EgressControl.Collection

variable {k : Kernel} {parse : ByteArray → Except FormatError ObjectFile} {d : Disk}
  {path name : String} {c c' : Collection} {maps : KernelMaps} {e : SetupError}

/-- A collection knows the `path` from which it was loaded. -/
private theorem path_of_ofObject {o : ObjectFile} (h : ofObject k path o = .ok (c, maps)) :
    c.path = path := by
  unfold ofObject at h
  split at h
  · simp at h
  · split at h
    · simp at h
    · have hpair := Except.ok.inj h
      rw [← (Prod.mk.inj hpair).1]

/-- What has been loaded bears the path of its object file. -/
theorem path_of_load (h : (load k parse d path).2 = .ok (c, maps)) : c.path = path := by
  unfold load at h
  split at h
  · simp at h
  · split at h
    · simp at h
    · split at h
      · simp at h
      · next hobject =>
        obtain ⟨rfl, rfl⟩ := Prod.mk.inj (Except.ok.inj h)
        exact path_of_ofObject hobject

/-- A map that cannot be lent is missing. -/
theorem lend_error (h : c.lend maps name = .error e) : e = .missingMap name := by
  unfold lend at h
  split at h
  · split at h
    · simp at h
    · exact (Except.error.inj h).symm
  · exact (Except.error.inj h).symm

/-- A map that cannot be taken is missing. -/
theorem take_error (h : c.take maps name = .error e) : e = .missingMap name := by
  unfold take at h
  split at h
  · next hlend => exact Except.error.inj h ▸ lend_error hlend
  · simp at h

/-- `take` leaves the `path` of the collection as it is. -/
theorem path_of_take {m : KernelMap} (h : c.take maps name = .ok (m, c')) : c'.path = c.path := by
  unfold take at h
  split at h
  · simp at h
  · have hpair := Except.ok.inj h
    rw [← (Prod.mk.inj hpair).2]

end EgressControl.Collection
