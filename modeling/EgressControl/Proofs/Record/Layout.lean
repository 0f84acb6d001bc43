import EgressControl.Proofs.Allow.Kernel
import EgressControl.Proofs.Allow.Observe
import EgressControl.Proofs.Record.Destination
import EgressControl.Proofs.Record.LittleEndian

/-!
# The layout of a record

`Record.LaidOut` says byte by byte how a record stands in a sample: words in little-endian order,
one field behind the other.  There is exactly one list of bytes for each record (`laidOut_iff`) and
exactly one record for each list of 36 bytes (`decode?_eq_ok_iff`), so that reading and writing are
inverse to each other.

`codec_bijective` puts this together with what becomes of the destination: it has the octets that
stand in the sample, and its key is the number that the filter program has sent.
-/

namespace EgressControl

namespace Record

/-- A number stands in a sample as a word, lowest byte first. -/
def WordAt (raw : List UInt8) (start width n : Nat) : Prop :=
  ∀ i < width, raw[start + i]? = some (UInt8.ofNat (n / 256 ^ i))

/-- The bytes of a sample are those of a record, field by field and without gaps. -/
structure LaidOut (r : Record) (raw : List UInt8) : Prop where
  length : raw.length = 36
  time : WordAt raw 0 8 r.time.toNat
  pid : WordAt raw 8 4 r.pid.toNat
  family : WordAt raw 12 2 r.family.toNat
  task : ∀ i (h : i < taskNameLength), raw[14 + i]? = some r.task[i]
  address : WordAt raw 30 4 r.address.toNat
  port : WordAt raw 34 2 r.port.toNat

variable {raw : List UInt8} {r : Record}

/-! ## Fields -/

/-- Fields that follow one another are one field. -/
private theorem field_append_field (raw : List UInt8) (start v w : Nat) :
    field raw start v ++ field raw (start + v) w = field raw start (v + w) := by
  rw [field, field, field, ← List.drop_drop, List.take_add]

/-- A field that lies within the bytes has its full width. -/
private theorem length_field {start w : Nat} (h : start + w ≤ raw.length) :
    (field raw start w).length = w := by
  simp only [field, List.length_take, List.length_drop]
  omega

/-- A byte of a field is the byte at its place. -/
private theorem getElem?_field {start w i : Nat} (h : i < w) :
    (field raw start w)[i]? = raw[start + i]? := by
  rw [field, List.getElem?_take_of_lt h, List.getElem?_drop]

/-- A field is known by its bytes. -/
private theorem field_eq_iff {start w : Nat} {bs : List UInt8} (h : start + w ≤ raw.length)
    (hbs : bs.length = w) :
    field raw start w = bs ↔ ∀ i < w, raw[start + i]? = bs[i]? := by
  constructor
  · rintro rfl i hi
    exact (getElem?_field hi).symm
  · intro heq
    refine List.ext_getElem? fun i => ?_
    by_cases hi : i < w
    · rw [getElem?_field hi, heq i hi]
    · have hlen := length_field h
      rw [List.getElem?_eq_none (by omega), List.getElem?_eq_none (by omega)]

/-- A number stands where its word is a field. -/
private theorem wordAt_iff {start w n : Nat} (h : start + w ≤ raw.length) :
    WordAt raw start w n ↔ field raw start w = LittleEndian.encode w n := by
  rw [field_eq_iff h (LittleEndian.length_encode w n)]
  refine forall₂_congr fun i hi => ?_
  rw [LittleEndian.getElem?_encode hi]

/-- A sample of 36 bytes is its fields, one behind the other. -/
private theorem fields_append (h : raw.length = size) :
    field raw 0 8 ++ field raw 8 4 ++ field raw 12 2 ++ field raw 14 taskNameLength ++
      field raw 30 4 ++ field raw 34 2 = raw := by
  have hall : field raw 0 36 = raw := by
    rw [field, List.drop_zero]
    exact List.take_of_length_le (Nat.le_of_eq h)
  rw [field_append_field raw 0 8 4, field_append_field raw 0 12 2,
    field_append_field raw 0 14 taskNameLength]
  exact (congrArg (· ++ field raw 34 2) (field_append_field raw 0 30 4)).trans
    ((field_append_field raw 0 34 2).trans hall)

/-- A record is written field by field. -/
private theorem encode_eq_iff :
    r.encode = raw ↔
      raw.length = size ∧
      field raw 0 8 = LittleEndian.encode 8 r.time.toNat ∧
      field raw 8 4 = LittleEndian.encode 4 r.pid.toNat ∧
      field raw 12 2 = LittleEndian.encode 2 r.family.toNat ∧
      field raw 14 taskNameLength = r.task.toList ∧
      field raw 30 4 = LittleEndian.encode 4 r.address.toNat ∧
      field raw 34 2 = LittleEndian.encode 2 r.port.toNat := by
  constructor
  · rintro rfl
    have hlen : r.encode.length = 36 := length_encode r
    have htaskLength : r.task.toList.length = taskNameLength := r.task.length_toList
    -- The fields make up the same bytes as the words, and each has the length of its word.
    have h := fields_append hlen
    obtain ⟨h, hport⟩ := List.append_inj' h (by simp [length_field, hlen])
    obtain ⟨h, haddress⟩ := List.append_inj' h (by simp [length_field, hlen])
    obtain ⟨h, htask⟩ := List.append_inj' h
      (by rw [length_field (by rw [hlen]; decide), htaskLength])
    obtain ⟨h, hfamily⟩ := List.append_inj' h (by simp [length_field, hlen])
    obtain ⟨htime, hpid⟩ := List.append_inj' h (by simp [length_field, hlen])
    exact ⟨hlen, htime, hpid, hfamily, htask, haddress, hport⟩
  · rintro ⟨hlen, htime, hpid, hfamily, htask, haddress, hport⟩
    have h := fields_append hlen
    rwa [htime, hpid, hfamily, htask, haddress, hport] at h

/-! ## Reading and writing -/

/-- The bytes of a record are the only ones that are laid out like it. -/
theorem laidOut_iff : r.LaidOut raw ↔ r.encode = raw := by
  -- The structure speaks of the task byte by byte, `encode_eq_iff` of the field as a whole.
  have htask (h : raw.length = 36) :
      field raw 14 taskNameLength = r.task.toList ↔
        ∀ i (h : i < taskNameLength), raw[14 + i]? = some r.task[i] := by
    rw [field_eq_iff (by rw [h]; decide) r.task.length_toList]
    refine forall₂_congr fun i hi => ?_
    have hbyte : r.task.toList[i]? = some r.task[i] := by simp [hi]
    rw [hbyte]
  rw [encode_eq_iff]
  constructor
  · intro h
    have hlen := h.length
    exact ⟨hlen, (wordAt_iff (by omega)).mp h.time, (wordAt_iff (by omega)).mp h.pid,
      (wordAt_iff (by omega)).mp h.family, (htask hlen).mpr h.task,
      (wordAt_iff (by omega)).mp h.address, (wordAt_iff (by omega)).mp h.port⟩
  · rintro ⟨hlen, htime, hpid, hfamily, htask', haddress, hport⟩
    have hlen' : raw.length = 36 := hlen
    exact
      { length := hlen
        time := (wordAt_iff (by omega)).mpr htime
        pid := (wordAt_iff (by omega)).mpr hpid
        family := (wordAt_iff (by omega)).mpr hfamily
        task := (htask hlen).mp htask'
        address := (wordAt_iff (by omega)).mpr haddress
        port := (wordAt_iff (by omega)).mpr hport }

/-- A record is read field by field. -/
theorem decode?_eq_ok_iff_fields :
    decode? raw = .ok r ↔
      raw.length = size ∧
      LittleEndian.decode (field raw 0 8) = r.time.toNat ∧
      LittleEndian.decode (field raw 8 4) = r.pid.toNat ∧
      LittleEndian.decode (field raw 12 2) = r.family.toNat ∧
      field raw 14 taskNameLength = r.task.toList ∧
      LittleEndian.decode (field raw 30 4) = r.address.toNat ∧
      LittleEndian.decode (field raw 34 2) = r.port.toNat := by
  -- A field of `w` bytes decodes to a number that its integer type holds.
  have hlt {start w : Nat} (h : start + w ≤ raw.length) :
      LittleEndian.decode (field raw start w) < 256 ^ w := by
    have := LittleEndian.decode_lt (field raw start w)
    rwa [length_field h] at this
  unfold decode?
  constructor
  · intro h
    split at h
    · next hlen =>
      have hlen' : raw.length = 36 := hlen
      obtain rfl := Except.ok.inj h
      refine ⟨hlen, ?_, ?_, ?_, ?_, ?_, ?_⟩
      · exact (UInt64.toNat_ofNat_of_lt' (hlt (by omega))).symm
      · exact (UInt32.toNat_ofNat_of_lt' (hlt (by omega))).symm
      · exact (UInt16.toNat_ofNat_of_lt' (hlt (by omega))).symm
      · rfl
      · exact (UInt32.toNat_ofNat_of_lt' (hlt (by omega))).symm
      · exact (UInt16.toNat_ofNat_of_lt' (hlt (by omega))).symm
    · simp at h
  · rintro ⟨hlen, htime, hpid, hfamily, htask, haddress, hport⟩
    rw [dif_pos hlen]
    congr 1
    -- The words are those of `r` as numbers; the task is its list of bytes.
    obtain ⟨time, pid, family, task, address, port⟩ := r
    simp only [htime, hpid, hfamily, haddress, hport, UInt64.ofNat_toNat, UInt32.ofNat_toNat,
      UInt16.ofNat_toNat, mk.injEq, true_and, and_true]
    exact Vector.toList_inj.mp htask

/-- A sample is read as the one record of which it is the bytes. -/
theorem decode?_eq_ok_iff : decode? raw = .ok r ↔ r.encode = raw := by
  rw [decode?_eq_ok_iff_fields, encode_eq_iff]
  refine and_congr_right fun hlen => ?_
  have hlen' : raw.length = 36 := hlen
  -- A field is the word of a number exactly if the number is read from it.
  have hword {start w n : Nat} (h : start + w ≤ raw.length) (hn : n < 256 ^ w) :
      LittleEndian.decode (field raw start w) = n ↔
        field raw start w = LittleEndian.encode w n := by
    constructor
    · rintro rfl
      exact (LittleEndian.encode_decode (length_field h)).symm
    · intro heq
      rw [heq, LittleEndian.decode_encode hn]
  rw [hword (by omega) r.time.toNat_lt, hword (by omega) r.pid.toNat_lt,
    hword (by omega) r.family.toNat_lt, hword (by omega) r.address.toNat_lt,
    hword (by omega) r.port.toNat_lt]

/-- Whether a sample is a record is decided by its length. -/
theorem exists_decode?_iff : (∃ r, decode? raw = .ok r) ↔ raw.length = size := by
  by_cases h : raw.length = size <;> simp [decode?, h]

/-- `decode?` fails exactly on bytes of another length than `size`, and tells both lengths. -/
private theorem decode?_eq_error_iff {e : DecodeError} :
    decode? raw = .error e ↔ raw.length ≠ size ∧ e = .length size raw.length := by
  by_cases h : raw.length = size <;> simp [decode?, h, eq_comm]

/-! ## The destination -/

/-- The octets of the destination stand in the sample one behind the other. -/
private theorem octets_at (h : decode? raw = .ok r) :
    let x := (Connection.ofRecord r).destination
    raw[30]? = some x.a ∧ raw[31]? = some x.b ∧ raw[32]? = some x.c ∧ raw[33]? = some x.d := by
  intro x
  have hoctets : field raw 30 4 = x.octets := octets_destination h
  have hat {i : Nat} (hi : i < 4) : raw[30 + i]? = x.octets[i]? := by
    rw [← hoctets, getElem?_field hi]
  exact ⟨hat (i := 0) (by decide), hat (i := 1) (by decide), hat (i := 2) (by decide),
    hat (i := 3) (by decide)⟩

/-- An observed destination that is let in has been written under the number that the record
holds, into the map as it was or, if that is of the kind `lruHash` and was full, without what it has
given up. -/
private theorem entries_observe (r : Record) (m : AllowManager AllowMap) (names : List String)
    (h : (m.observe (Connection.ofRecord r).destination names).allowed = true) :
    ∃ room, m.store.map.roomFor? r.address = some room ∧
      (m.store.map.spec.kind ≠ .lruHash → room = m.store.map) ∧
      (m.observe (Connection.ofRecord r).destination names).manager.store.map.entries =
        room.entries.insert r.address allowPresent := by
  have hkey : (Connection.ofRecord r).destination.key = r.address := Ipv4.key_ofKey r.address
  rcases m.observe_cases (Connection.ofRecord r).destination names with
    ⟨-, heq⟩ | ⟨_, _, -, -, heq⟩ | ⟨_, store, -, hput, heq⟩
  · simp [heq] at h
  · simp [heq] at h
  · have hinsert := AllowMap.insert_of_put_eq_ok hput
    rw [hkey] at hinsert
    obtain ⟨room, hroom, hmap⟩ := KernelMap.insert_eq_ok hinsert
    exact ⟨room, hroom, KernelMap.roomFor?_of_ne_lruHash hroom, by rw [heq, hmap]; rfl⟩

/-- `decode?` and `encode` are inverse on lists of 36 bytes, on which a record is `LaidOut` field
by field, and any other length is an error that tells it; `key` and `ofKey` are inverse too.  The
octets of the destination are the bytes 30 to 33, and `observe` writes `allowPresent` under the
word that stands there, after a full map of the kind `lruHash` has made room. -/
theorem codec_bijective :
    (∀ raw, (∃ r, decode? raw = .ok r) ↔ raw.length = 36) ∧
    (∀ raw e, decode? raw = .error e ↔ raw.length ≠ 36 ∧ e = .length 36 raw.length) ∧
    (∀ r : Record, r.encode.length = 36 ∧ decode? r.encode = .ok r) ∧
    (∀ raw r, decode? raw = .ok r ↔ r.encode = raw) ∧
    (∀ raw r, decode? raw = .ok r ↔ r.LaidOut raw) ∧
    (∀ x : Ipv4, .ofKey x.key = x) ∧
    (∀ key : UInt32, (Ipv4.ofKey key).key = key) ∧
    ∀ raw r, decode? raw = .ok r →
      let x := (Connection.ofRecord r).destination
      (raw[30]? = some x.a ∧ raw[31]? = some x.b ∧ raw[32]? = some x.c ∧ raw[33]? = some x.d) ∧
      x.key = r.address ∧
      ∀ (m : AllowManager AllowMap) names, (m.observe x names).allowed = true →
        ∃ room, m.store.map.roomFor? r.address = some room ∧
          (m.store.map.spec.kind ≠ .lruHash → room = m.store.map) ∧
          (m.observe x names).manager.store.map.entries =
            room.entries.insert r.address allowPresent := by
  refine ⟨fun _ => exists_decode?_iff, fun _ _ => decode?_eq_error_iff, fun r => ?_,
    fun _ _ => decode?_eq_ok_iff, fun _ _ => decode?_eq_ok_iff.trans laidOut_iff.symm,
    Ipv4.ofKey_key, Ipv4.key_ofKey, fun raw r h => ?_⟩
  · exact ⟨length_encode r, decode?_eq_ok_iff.mpr rfl⟩
  · exact ⟨octets_at h, Ipv4.key_ofKey r.address, entries_observe r⟩

/-- In a sample of the bytes 0 to 35 every byte shows where it stands. -/
example : decode? ((List.range 36).map UInt8.ofNat) =
    .ok
      { time := 0x0706050403020100, pid := 0x0b0a0908, family := 0x0d0c
        task := #v[14, 15, 16, 17, 18, 19, 20, 21, 22, 23, 24, 25, 26, 27, 28, 29]
        address := 0x21201f1e, port := 0x2322 } := by
  rfl

end Record

end EgressControl
