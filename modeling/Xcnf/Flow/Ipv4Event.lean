import Xcnf.Flow.Accept
import Xcnf.Flow.Decode

/-!
# The events of IPv4 frames on little-endian targets

Every field of the record but the two addresses decodes to the header field it was
stored for. The word `0xffff` meant for the prefix of an address is stored at index 5
of a four-word union, eight bytes behind the address: the one meant for the source lands
in the destination address, and the one meant for the destination is overwritten by the
fields that follow. No event therefore holds an IPv4-mapped address.
-/

namespace Xcnf.Flow

namespace Frame

/-- The SYN bit, zero for a datagram. -/
def syn (data : List UInt8) : Bool := protocol data = ipprotoTcp && Tcphdr.syn (tcpFlags data)

/-- The ACK bit, zero for a datagram. -/
def ack (data : List UInt8) : Bool := protocol data = ipprotoTcp && Tcphdr.ack (tcpFlags data)

end Frame

/-- The source address of an event: no prefix, then the IPv4 address. -/
def eventSrcIp (ip : Region 4) : Region 16 := (Region.zero 16).store 12 ip Addr.lastWord_fits

/-- The destination address of an event, with the word that missed the source's prefix. -/
def eventDstIp (ip : Region 4) : Region 16 :=
  ((Region.zero 16).store 4 (Region.ofWord32 .little 0xffff)).store 12 ip Addr.lastWord_fits

theorem eventSrcIp_front (ip : Region 4) : (eventSrcIp ip).load 0 12 = List.replicate 12 0 := by
  simp [eventSrcIp]

theorem eventDstIp_front (ip : Region 4) :
    (eventDstIp ip).load 0 12 = [0, 0, 0, 0, 0xff, 0xff, 0, 0, 0, 0, 0, 0] := by
  have low : (eventDstIp ip).load 0 4 = [0, 0, 0, 0] := by simp [eventDstIp]
  have word : (eventDstIp ip).load 4 4 = [0xff, 0xff, 0, 0] := by
    simp only [eventDstIp, Region.load_store_before, Region.load_store_same, Nat.reduceAdd,
      Nat.reduceLeDiff]
    decide
  have high : (eventDstIp ip).load 8 4 = [0, 0, 0, 0] := by simp [eventDstIp]
  calc
    (eventDstIp ip).load 0 12
      = (eventDstIp ip).load 0 4 ++ ((eventDstIp ip).load 4 4 ++ (eventDstIp ip).load 8 4) := by
        rw [← Region.load_add, ← Region.load_add]
    _ = _ := by rw [low, word, high]; rfl

/-- The packet decoded from the event of an accepted frame. -/
def eventPacket (data : List UInt8) (now : UInt64) : Packet where
  srcIP := .v6 (eventSrcIp (Frame.saddr data)) ""
  dstIP := .v6 (eventDstIp (Frame.daddr data)) ""
  srcPort := (Frame.srcPort data).toWord16 .big
  dstPort := (Frame.dstPort data).toWord16 .big
  protocol := Frame.protocol data
  ttl := Frame.ttl data
  syn := Frame.syn data
  ack := Frame.ack data
  timestamp := now

/-- The transport switch and the clock only touch bytes behind the addresses. -/
theorem ipv4Event_addresses (order : ByteOrder) (data : List UInt8) (now : UInt64)
    {place len : Nat} (h : place + len ≤ 32) :
    (ipv4Event order data now).load place len =
      (ipv4Stores order data (Region.zero sizeofPacketT)).load place len := by
  have h34 : place + len ≤ 34 := by omega
  have h38 : place + len ≤ 38 := by omega
  have h39 : place + len ≤ 39 := by omega
  have h40 : place + len ≤ 40 := by omega
  simp only [ipv4Event, ipv4Record, transportStores, stamp, PacketT.offSrcPort,
    PacketT.offDstPort, PacketT.offSyn, PacketT.offAck, PacketT.offTs,
    Region.load_store_before _ h40]
  split
  · simp only [Region.load_store_before _ h, Region.load_store_before _ h34,
      Region.load_store_before _ h38, Region.load_store_before _ h39]
  · simp only [Region.load_store_before _ h, Region.load_store_before _ h34]

theorem ipv4Event_srcIp (data : List UInt8) (now : UInt64) :
    (ipv4Event .little data now).sub 0 16 = eventSrcIp (Frame.saddr data) := by
  apply Region.ext_cut 12 (by decide)
  · rw [Region.sub_load (by decide), ipv4Event_addresses _ _ _ (by decide)]
    simp [ipv4Stores, eventSrcIp, sizeofPacketT]
  · rw [Region.sub_load (by decide), ipv4Event_addresses _ _ _ (by decide)]
    simp [ipv4Stores, eventSrcIp, sizeofPacketT]

theorem ipv4Event_dstIp (data : List UInt8) (now : UInt64) :
    (ipv4Event .little data now).sub 16 16 = eventDstIp (Frame.daddr data) := by
  apply Region.ext_cut 4 (by decide)
  · rw [Region.sub_load (by decide), ipv4Event_addresses _ _ _ (by decide)]
    simp [ipv4Stores, eventDstIp, sizeofPacketT]
  · rw [Region.sub_load (by decide), ipv4Event_addresses _ _ _ (by decide)]
    change Region.load _ 20 (4 + (4 + 4)) = Region.load _ 4 (4 + (4 + 4))
    simp only [Region.load_add]
    simp [ipv4Stores, eventDstIp, sizeofPacketT]

theorem ipv4Event_ports (order : ByteOrder) (data : List UInt8) (now : UInt64) :
    (ipv4Event order data now).sub 32 2 = Frame.srcPort data ∧
      (ipv4Event order data now).sub 34 2 = Frame.dstPort data := by
  simp only [Region.sub_eq_iff, ipv4Event, ipv4Record, transportStores, stamp]
  split <;> simp

theorem ipv4Event_protocol_ttl (order : ByteOrder) (data : List UInt8) (now : UInt64) :
    (ipv4Event order data now).get 36 = Frame.protocol data ∧
      (ipv4Event order data now).get 37 = Frame.ttl data := by
  simp only [Region.get_eq_iff, ipv4Event, ipv4Record, transportStores, stamp]
  split <;> simp [ipv4Stores, Region.ofByte]

/-- The flag bytes of a datagram come from the upper half of the word `0xffff`, which is
zero on a little-endian target. -/
theorem ipv4Event_flags (data : List UInt8) (now : UInt64) :
    (ipv4Event .little data now).get 38 = boolByte (Frame.syn data) ∧
      (ipv4Event .little data now).get 39 = boolByte (Frame.ack data) := by
  simp only [Region.get_eq_iff, ipv4Event, ipv4Record, transportStores, stamp, Frame.syn,
    Frame.ack]
  by_cases htcp : Frame.protocol data = ipprotoTcp
  · simp [htcp, Region.ofByte]
  · have syn (pkt : Record) : (pkt.store 36 (Region.ofWord32 .little 0xffff)).load 38 1 = [0] :=
      (Region.load_store_inside pkt (show 2 + 1 ≤ 4 by decide)).trans (by decide)
    have ack (pkt : Record) : (pkt.store 36 (Region.ofWord32 .little 0xffff)).load 39 1 = [0] :=
      (Region.load_store_inside pkt (show 3 + 1 ≤ 4 by decide)).trans (by decide)
    simp [htcp, ipv4Stores, syn, ack, boolByte]

theorem ipv4Event_ts (order : ByteOrder) (data : List UInt8) (now : UInt64) :
    (ipv4Event order data now).sub 40 8 = Region.ofWord64 order now := by
  rw [Region.sub_eq_iff]
  simp [ipv4Event, stamp]

/-- The event of a frame decodes to `eventPacket`. -/
theorem ofRecord_ipv4Event (data : List UInt8) (now : UInt64) :
    Packet.ofRecord (ipv4Event .little data now) = eventPacket data now := by
  simp only [Packet.ofRecord, eventPacket, ipv4Event_srcIp, ipv4Event_dstIp, ipv4Event_ports,
    ipv4Event_protocol_ttl, ipv4Event_flags, ipv4Event_ts, boolByte_eq_one, toWord64_ofWord64,
    asLittle]

theorem unmarshalBinary_ipv4Event (data : List UInt8) (now : UInt64) :
    unmarshalBinary (.ofList (ipv4Event .little data now).bytes) =
      .ok (some (eventPacket data now)) := by
  rw [unmarshalBinary_record (GoSlice.ofList_startsWith _), ofRecord_ipv4Event]

/-! ## The packet's own fields -/

/-- The mapped form of an IPv4 address unmaps to that address. -/
theorem Addr.unmap_mapped (ip : Region 4) : (Addr.mapped ip).unmap = .v4 ip := by
  obtain ⟨bytes, size⟩ := ip
  have front : (mappedPrefix ++ bytes).take 12 = mappedPrefix := rfl
  have back : (mappedPrefix ++ bytes).drop 12 = bytes := rfl
  rw [mapped, unmap, Region.load, List.drop_zero, front, if_pos rfl]
  congr 1
  rw [Region.sub_eq_iff, Region.load, back, List.take_of_length_le (Nat.le_of_eq size)]

/-- An address without the mapped prefix stays an IPv6 address. -/
theorem Addr.unmap_of_prefix {ip : Region 16} {zone : String}
    (h : ip.load 0 12 ≠ mappedPrefix) : (Addr.v6 ip zone).unmap = .v6 ip zone := if_neg h

theorem eventPacket_unmap (data : List UInt8) (now : UInt64) :
    (eventPacket data now).srcIP.unmap = .v6 (eventSrcIp (Frame.saddr data)) "" ∧
      (eventPacket data now).dstIP.unmap = .v6 (eventDstIp (Frame.daddr data)) "" := by
  refine ⟨Addr.unmap_of_prefix ?_, Addr.unmap_of_prefix ?_⟩
  · rw [eventSrcIp_front]
    decide
  · rw [eventDstIp_front]
    decide

/-- The packet has the fields of the frame's headers and the time that was read, with
its addresses in IPv4-mapped form. -/
structure CarriesFields (data : List UInt8) (now : UInt64) (pkt : Packet) : Prop where
  srcIP : pkt.srcIP = .mapped (Frame.saddr data)
  dstIP : pkt.dstIP = .mapped (Frame.daddr data)
  srcPort : pkt.srcPort = (Frame.srcPort data).toWord16 .big
  dstPort : pkt.dstPort = (Frame.dstPort data).toWord16 .big
  protocol : pkt.protocol = Frame.protocol data
  ttl : pkt.ttl = Frame.ttl data
  syn : pkt.syn = Frame.syn data
  ack : pkt.ack = Frame.ack data
  timestamp : pkt.timestamp = now

/-- What `flat` emits for the frame decodes to a packet with the frame's own fields. -/
def EmitsOwnFields (env : Helpers) (skb : SkBuff) : Prop :=
  ∃ code ev pkt, flat .little env skb = .ok (code, [ev]) ∧
    unmarshalBinary (.ofList ev.bytes) = .ok (some pkt) ∧
    CarriesFields skb.data env.ktimeGetNs pkt

/-- Neither address of an event has the mapped prefix. -/
theorem eventPacket_not_carriesFields (data : List UInt8) (now : UInt64) :
    ¬ CarriesFields data now (eventPacket data now) := by
  intro fields
  have unmapped := (eventPacket_unmap data now).1
  rw [fields.srcIP, Addr.unmap_mapped] at unmapped
  contradiction

theorem not_emitsOwnFields (env : Helpers) (skb : SkBuff) : ¬ EmitsOwnFields env skb := by
  rintro ⟨code, ev, pkt, hflat, hpkt, fields⟩
  obtain ⟨_, rfl⟩ := flat_emits hflat
  rw [unmarshalBinary_ipv4Event, Except.ok.injEq, Option.some.injEq] at hpkt
  subst hpkt
  exact eventPacket_not_carriesFields skb.data env.ktimeGetNs fields

/-- Every accepted frame has its event emitted, and none has its own fields in it. -/
theorem accepted_not_emitsOwnFields {env : Helpers} {skb : SkBuff}
    (ready : env.Succeed) (accepted : Accepts skb) :
    flat .little env skb = .ok (tcActOk, [ipv4Event .little skb.data env.ktimeGetNs]) ∧
      ¬ EmitsOwnFields env skb :=
  ⟨accepted.flat_eq ready .little, not_emitsOwnFields env skb⟩

theorem synFrame_not_emitsOwnFields :
    flat .little (.succeedAt 1000) synFrame =
        .ok (tcActOk, [ipv4Event .little synFrame.data 1000]) ∧
      ¬ EmitsOwnFields (.succeedAt 1000) synFrame :=
  accepted_not_emitsOwnFields (Helpers.succeedAt_succeed 1000) (by decide)

/-- The frame has no IP options and is accepted, and its event does not carry its
fields. -/
theorem synFrame_refutes_ownFields :
    ¬ ∀ (env : Helpers) (skb : SkBuff), env.Succeed → Accepts skb →
      Buffer.byteAt skb.data 14 = 0x45 → EmitsOwnFields env skb := by
  intro claimed
  exact not_emitsOwnFields (.succeedAt 1000) synFrame
    (claimed (.succeedAt 1000) synFrame (Helpers.succeedAt_succeed 1000) (by decide) (by decide))

end Xcnf.Flow
