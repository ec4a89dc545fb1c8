import Xcnf.Flow.Packet

/-!
# The event format

`UnmarshalBinary` applied to the 48 bytes of a record never fails, and gives
`Packet.ofRecord`, each field read at its offset. Laying a `struct packet_t` out and
decoding it is the identity on every field but the timestamp, which is stored in the
target's order and always read as little-endian (`unmarshalBinary_layout`).
-/

namespace Xcnf.Flow

/-! ## Addresses of known bytes -/

theorem Addr.fromSlice_sixteen {s : GoSlice UInt8} {ip : Region 16} (h : s.elems = ip.bytes) :
    Addr.fromSlice s = some (.v6 ip "") := by
  have hlen : s.elems.length = 16 := by rw [h, ip.size]
  rw [fromSlice, dif_neg (by omega), dif_pos hlen]
  exact congrArg (fun ip => some (Addr.v6 ip "")) (Region.ext h)

theorem Addr.fromSlice_of_length {s : GoSlice UInt8} (h : s.len = 16) :
    ∃ ip, Addr.fromSlice s = some ip := by
  let ip : Region 16 := ⟨s.elems, s.elems_length.trans h⟩
  exact ⟨_, Addr.fromSlice_sixteen (show s.elems = ip.bytes from rfl)⟩

/-- `UnmarshalBinary` either succeeds or panics: both addresses are cut to 16 bytes, so
its result `ok` is never false. -/
theorem unmarshalBinary_ne_none (s : GoSlice UInt8) : unmarshalBinary s ≠ .ok none := by
  intro h
  rw [unmarshalBinary, Checked.bind_eq_ok] at h
  obtain ⟨src, hsrc, h⟩ := h
  obtain ⟨srcIP, hsrcIP⟩ := Addr.fromSlice_of_length (GoSlice.slice_len hsrc)
  rw [hsrcIP, Checked.bind_eq_ok] at h
  obtain ⟨dst, hdst, h⟩ := h
  obtain ⟨dstIP, hdstIP⟩ := Addr.fromSlice_of_length (GoSlice.slice_len hdst)
  rw [hdstIP] at h
  simp [Checked.bind_eq_ok] at h

/-! ## Records -/

/-- The fields of a record, each read at its offset. -/
def Packet.ofRecord (r : Record) : Packet where
  srcIP := .v6 (r.sub 0 16) ""
  dstIP := .v6 (r.sub 16 16) ""
  srcPort := (r.sub 32 2).toWord16 .big
  dstPort := (r.sub 34 2).toWord16 .big
  protocol := r.get 36
  ttl := r.get 37
  syn := r.get 38 == 1
  ack := r.get 39 == 1
  timestamp := (r.sub 40 8).toWord64 .little

/-- Decoding a sample that starts with a record succeeds, whatever length and capacity
the sample has. -/
theorem unmarshalBinary_record {s : GoSlice UInt8} {r : Record} (h : s.StartsWith r) :
    unmarshalBinary s = .ok (some (Packet.ofRecord r)) := by
  obtain ⟨srcIP, hsrcIP, esrcIP⟩ := h.slice 0 16 (by decide)
  obtain ⟨dstIP, hdstIP, edstIP⟩ := h.slice 16 16 (by decide)
  obtain ⟨srcPort, hsrcPort, esrcPort⟩ := h.slice 32 2 (by decide)
  obtain ⟨dstPort, hdstPort, edstPort⟩ := h.slice 34 2 (by decide)
  obtain ⟨ts, hts, ets⟩ := h.slice 40 8 (by decide)
  have hbyte (i : Nat) (hi : i < 48) : s.index i = .ok (r.get i hi) := h.index hi
  simp only [Nat.reduceAdd] at hsrcIP hdstIP hsrcPort hdstPort hts
  simp only [unmarshalBinary, hsrcIP, hdstIP, hsrcPort, hdstPort, hts, hbyte 36 (by decide),
    hbyte 37 (by decide), hbyte 38 (by decide), hbyte 39 (by decide), Checked.ok_bind,
    Addr.fromSlice_sixteen esrcIP, Addr.fromSlice_sixteen edstIP,
    Binary.bigEndianUint16_eq esrcPort, Binary.bigEndianUint16_eq edstPort,
    Binary.littleEndianUint64_eq ets]
  rfl

/-! ## Round trip -/

/-- What a decoder that knew the target would return for a value of the structure. -/
def PacketT.toPacket (v : PacketT) : Packet where
  srcIP := .v6 v.srcIp ""
  dstIP := .v6 v.dstIp ""
  srcPort := v.srcPort.toWord16 .big
  dstPort := v.dstPort.toWord16 .big
  protocol := v.protocol
  ttl := v.ttl
  syn := v.syn
  ack := v.ack
  timestamp := v.ts

/-- A native word read as little-endian. -/
def asLittle (order : ByteOrder) (ts : UInt64) : UInt64 :=
  match order with
  | .little => ts
  | .big => ByteOrder.bswap64 ts

theorem toWord64_ofWord64 (order : ByteOrder) (ts : UInt64) :
    (Region.ofWord64 order ts).toWord64 .little = asLittle order ts := by
  cases order with
  | little => exact Region.toWord64_ofWord64 .little ts
  | big => exact Region.toWord64_little_ofWord64_big ts

theorem asLittle_injective (order : ByteOrder) : Function.Injective (asLittle order) := by
  cases order with
  | little => exact Function.injective_id
  | big => exact ByteOrder.bswap64_injective

theorem ofRecord_layout (v : PacketT) (order : ByteOrder) :
    Packet.ofRecord (v.layout order) = { v.toPacket with timestamp := asLittle order v.ts } := by
  have hsrcIP : (v.layout order).sub 0 16 = v.srcIp := by
    rw [Region.sub_eq_iff]; simp [PacketT.layout]
  have hdstIP : (v.layout order).sub 16 16 = v.dstIp := by
    rw [Region.sub_eq_iff]; simp [PacketT.layout]
  have hsrcPort : (v.layout order).sub 32 2 = v.srcPort := by
    rw [Region.sub_eq_iff]; simp [PacketT.layout]
  have hdstPort : (v.layout order).sub 34 2 = v.dstPort := by
    rw [Region.sub_eq_iff]; simp [PacketT.layout]
  have hprotocol : (v.layout order).get 36 = v.protocol := by
    rw [Region.get_eq_iff]; simp [PacketT.layout, Region.ofByte]
  have httl : (v.layout order).get 37 = v.ttl := by
    rw [Region.get_eq_iff]; simp [PacketT.layout, Region.ofByte]
  have hsyn : (v.layout order).get 38 = boolByte v.syn := by
    rw [Region.get_eq_iff]; simp [PacketT.layout, Region.ofByte]
  have hack : (v.layout order).get 39 = boolByte v.ack := by
    rw [Region.get_eq_iff]; simp [PacketT.layout, Region.ofByte]
  have hts : (v.layout order).sub 40 8 = Region.ofWord64 order v.ts := by
    rw [Region.sub_eq_iff]; simp [PacketT.layout]
  simp only [Packet.ofRecord, hsrcIP, hdstIP, hsrcPort, hdstPort, hprotocol, httl, hsyn, hack, hts,
    boolByte_eq_one, toWord64_ofWord64, PacketT.toPacket]

/-- Everything but the timestamp survives on both kinds of target. -/
theorem unmarshalBinary_layout (v : PacketT) (order : ByteOrder) :
    unmarshalBinary (.ofList (v.layout order).bytes) =
      .ok (some { v.toPacket with timestamp := asLittle order v.ts }) := by
  rw [unmarshalBinary_record (GoSlice.ofList_startsWith _), ofRecord_layout]

theorem toPacket_timestamp_eq_iff (v : PacketT) (ts : UInt64) :
    { v.toPacket with timestamp := ts } = v.toPacket ↔ ts = v.ts := by
  constructor
  · exact congrArg Packet.timestamp
  · rintro rfl
    rfl

/-- The decoded packet determines the value, on either kind of target. -/
theorem toPacket_injective (order : ByteOrder) :
    Function.Injective fun v : PacketT =>
      { v.toPacket with timestamp := asLittle order v.ts } := by
  intro v w h
  obtain ⟨hsrcIp, hdstIp, hsrcPort, hdstPort, hprotocol, httl, hsyn, hack, hts⟩ :=
    Packet.ext_iff.mp h
  exact PacketT.ext (Addr.v6.inj hsrcIp).1 (Addr.v6.inj hdstIp).1
    (Region.ext (ByteOrder.big.word16_injective (Region.size _) (Region.size _) hsrcPort))
    (Region.ext (ByteOrder.big.word16_injective (Region.size _) (Region.size _) hdstPort))
    hprotocol httl hsyn hack (asLittle_injective order hts)

/-- A value laid out for the target decodes to the same values, and nothing else laid
out for the target decodes to them. -/
def RoundTrips (order : ByteOrder) (v : PacketT) : Prop :=
  unmarshalBinary (.ofList (v.layout order).bytes) = .ok (some v.toPacket) ∧
    ∀ w : PacketT, w ≠ v →
      unmarshalBinary (.ofList (w.layout order).bytes) ≠
        unmarshalBinary (.ofList (v.layout order).bytes)

/-- The event format round trips on little-endian targets. On big-endian targets the
timestamp comes back byte-swapped, so only the values whose timestamp reads the same
both ways survive. -/
theorem roundTrips_iff (order : ByteOrder) (v : PacketT) :
    RoundTrips order v ↔ order = .little ∨ ByteOrder.bswap64 v.ts = v.ts := by
  have distinct (w : PacketT) (hw : w ≠ v) :
      unmarshalBinary (.ofList (w.layout order).bytes) ≠
        unmarshalBinary (.ofList (v.layout order).bytes) := by
    rw [unmarshalBinary_layout, unmarshalBinary_layout]
    intro h
    exact hw (toPacket_injective order (Option.some.inj (Except.ok.inj h)))
  have decoded : unmarshalBinary (.ofList (v.layout order).bytes) = .ok (some v.toPacket) ↔
      asLittle order v.ts = v.ts := by
    rw [unmarshalBinary_layout, Except.ok.injEq, Option.some.injEq, toPacket_timestamp_eq_iff]
  rw [RoundTrips, decoded]
  cases order with
  | little => exact ⟨fun _ => .inl rfl, fun _ => ⟨rfl, distinct⟩⟩
  | big =>
      constructor
      · intro h
        exact .inr h.1
      · rintro (h | h)
        · contradiction
        · exact ⟨h, distinct⟩

/-- A datagram's record stamped one nanosecond after boot. -/
def earlyRecord : PacketT where
  srcIp := Region.zero 16
  dstIp := Region.zero 16
  srcPort := ⟨[0, 53], rfl⟩
  dstPort := ⟨[0x80, 0], rfl⟩
  protocol := 17
  ttl := 64
  syn := false
  ack := false
  ts := 1

/-- On a big-endian target the first nanosecond decodes as `2 ^ 56` of them. -/
theorem earlyRecord_not_roundTrips : ¬ RoundTrips .big earlyRecord := by
  intro h
  have swapped := h.1
  rw [unmarshalBinary_layout, Except.ok.injEq, Option.some.injEq,
    toPacket_timestamp_eq_iff] at swapped
  exact absurd swapped (by decide)

end Xcnf.Flow
