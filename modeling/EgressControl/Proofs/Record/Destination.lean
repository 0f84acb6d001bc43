import EgressControl.Proofs.Consumer.Steps

/-!
# The destination of a record

The destination stands in a record as four octets, first octet first.  Taken as a little-endian
word they are the key under which the kernel's maps know the address.  `Sample.Reports` says this
of a sample in terms of its bytes, and `Sample.reports_iff` in terms of the connection that the
sample is read as.
-/

namespace EgressControl

namespace Record

/-- The octets at bytes 30 to 33 are those of the destination, in their order. -/
theorem octets_destination {raw : List UInt8} {record : Record} (h : decode? raw = .ok record) :
    (raw.drop 30).take 4 = (Connection.ofRecord record).destination.octets := by
  unfold decode? at h
  split at h
  · next hlen =>
    obtain rfl := Except.ok.inj h
    have hfield : (field raw 30 4).length = 4 := by simp [field, hlen, size]
    obtain ⟨a, b, c, d, hoctets⟩ : ∃ a b c d, field raw 30 4 = [a, b, c, d] := by
      match field raw 30 4, hfield with
      | [a, b, c, d], _ => exact ⟨a, b, c, d, rfl⟩
    -- The word that these octets make is by definition the key of the address.
    have hkey : UInt32.ofNat (LittleEndian.decode (field raw 30 4)) = Ipv4.key ⟨a, b, c, d⟩ := by
      rw [hoctets]
      rfl
    show field raw 30 4 = (Ipv4.ofKey (.ofNat (LittleEndian.decode (field raw 30 4)))).octets
    rw [hkey, Ipv4.ofKey_key, hoctets]
    rfl
  · simp at h

end Record

namespace Sample

/-- A sample of 36 bytes with the octets of `x` at bytes 30 to 33, which as a little-endian word
are `key`. -/
def Reports (s : Sample) (x : Ipv4) (key : UInt32) : Prop :=
  ∃ raw, s = .bytes raw ∧ raw.length = 36 ∧ (raw.drop 30).take 4 = [x.a, x.b, x.c, x.d] ∧
    key.toNat = x.a.toNat + 0x100 * x.b.toNat + 0x10000 * x.c.toNat + 0x1000000 * x.d.toNat

/-- A sample reports the connection of the record that it holds, and no other. -/
private theorem connection?_eq_some_iff {s : Sample} {c : Connection} :
    s.connection? = some c ↔
      ∃ raw record, s = .bytes raw ∧ Record.decode? raw = .ok record ∧ c = .ofRecord record := by
  cases s with
  | fault cpu cause => simp [connection?]
  | bytes raw =>
    simp only [connection?]
    constructor
    · intro h
      split at h
      · next record hrecord => exact ⟨raw, record, rfl, hrecord, (Option.some.inj h).symm⟩
      · simp at h
    · rintro ⟨raw', record, heq, hrecord, rfl⟩
      obtain rfl := bytes.inj heq
      rw [hrecord]

/-- The bytes of a sample tell the destination of its connection, and the destination its key. -/
theorem reports_iff {s : Sample} {x : Ipv4} {key : UInt32} :
    s.Reports x key ↔ (∃ c, s.connection? = some c ∧ c.destination = x) ∧ key = x.key := by
  rw [← UInt32.toNat_inj, Ipv4.toNat_key]
  constructor
  · rintro ⟨raw, rfl, hlen, hoctets, hkey⟩
    refine ⟨?_, hkey⟩
    have hsome : ((Sample.bytes raw).connection?).isSome = true := by
      rw [isSome_connection?]
      exact decide_eq_true hlen
    obtain ⟨c, hc⟩ := Option.isSome_iff_exists.mp hsome
    obtain ⟨raw', record, heq, hrecord, rfl⟩ := connection?_eq_some_iff.mp hc
    obtain rfl := bytes.inj heq
    have hx := Record.octets_destination hrecord
    rw [hoctets] at hx
    refine ⟨_, hc, ?_⟩
    simp only [Ipv4.octets, List.cons.injEq, and_true] at hx
    obtain ⟨ha, hb, hc, hd⟩ := hx
    -- The four bytes at offset 30 are the octets of both addresses.
    obtain ⟨a, b, c, d⟩ := x
    simp only at ha hb hc hd
    rw [ha, hb, hc, hd]
  · rintro ⟨⟨c, hc, rfl⟩, hkey⟩
    have hlen : s.isRecord = true := by rw [← isSome_connection?, hc]; rfl
    obtain ⟨raw, record, rfl, hrecord, rfl⟩ := connection?_eq_some_iff.mp hc
    exact ⟨raw, rfl, of_decide_eq_true hlen, Record.octets_destination hrecord, hkey⟩

/-- The destination of a sample is one, and so is its key. -/
theorem Reports.key_eq {s : Sample} {x : Ipv4} {key : UInt32} (h : s.Reports x key) :
    key = x.key := (reports_iff.mp h).2

end Sample

end EgressControl
