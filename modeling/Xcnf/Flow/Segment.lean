import Xcnf.Flow.Ipv4Event

/-!
# Where the transport header is

`flat` takes the transport header to start right behind twenty bytes of IPv4 header, and
asks for the room of a TCP header there, whichever protocol is announced. A datagram with
less than twelve bytes behind its header is therefore not reported
(`segmentsHandled_iff`), and behind IP options the ports and the flags are read from the
wrong place (`readsRealHeader_iff`).
-/

namespace Xcnf.Flow

namespace Frame

/-- The length of the IPv4 header in words. -/
def ihl (data : List UInt8) : Nat := (Buffer.byteAt data 14 &&& 0x0f).toNat

/-- Where the transport header starts behind an IPv4 header, options included. -/
def realL4 (data : List UInt8) : Nat := 14 + 4 * ihl data

def realSrcPort (data : List UInt8) : Region 2 := Buffer.peek data (realL4 data) 2
def realDstPort (data : List UInt8) : Region 2 := Buffer.peek data (realL4 data + 2) 2
def realTcpFlags (data : List UInt8) : UInt8 := Buffer.byteAt data (realL4 data + 13)

theorem realL4_eq {data : List UInt8} (h : ihl data = 5) : realL4 data = l4 := by
  rw [realL4, h]
  rfl

end Frame

/-- An IPv4 packet with a header of a legal length. -/
structure IsIpv4 (skb : SkBuff) : Prop where
  etherType : Frame.etherType skb.data = ethPIp
  ihl : 5 ≤ Frame.ihl skb.data

/-- No more fragments follow, and the offset is zero. -/
def Unfragmented (skb : SkBuff) : Prop := (Buffer.peek skb.data 20 2).toWord16 .big &&& 0x3fff = 0

instance (skb : SkBuff) : Decidable (Unfragmented skb) := inferInstanceAs (Decidable (_ = _))

/-! ## Headers that are short of twenty bytes -/

/-- A unicast datagram without IP options, of which at least the UDP header is captured. -/
structure CompleteDatagram (skb : SkBuff) : Prop extends IsIpv4 skb where
  unicast : skb.pktType ≠ packetBroadcast ∧ skb.pktType ≠ packetMulticast
  unfragmented : Unfragmented skb
  noOptions : Frame.ihl skb.data = 5
  protocol : Frame.protocol skb.data = ipprotoUdp
  captured : Frame.l4 + sizeofUdphdr ≤ skb.data.length

/-- A TCP packet of which less than a TCP header is captured. -/
structure ShortTcp (skb : SkBuff) : Prop extends IsIpv4 skb where
  protocol : Frame.protocol skb.data = ipprotoTcp
  short : skb.data.length < Frame.realL4 skb.data + sizeofTcphdr

/-- A complete datagram is reported once, with its ports, and a TCP packet without a
complete header is not reported. -/
structure SegmentsHandled (order : ByteOrder) (env : Helpers) (skb : SkBuff) : Prop where
  datagram : CompleteDatagram skb → 0 ≤ env.ringbufOutput →
    ∃ code ev, flat order env skb = .ok (code, [ev]) ∧
      ev.sub PacketT.offSrcPort 2 PacketT.fits.srcPort = Frame.srcPort skb.data ∧
      ev.sub PacketT.offDstPort 2 PacketT.fits.dstPort = Frame.dstPort skb.data
  tcp : ShortTcp skb → ∃ code, flat order env skb = .ok (code, [])

/-- The frame has room for a TCP header behind twenty bytes of IP header if it is a
complete datagram, and has not if it is a short TCP packet. -/
structure RoomFits (env : Helpers) (skb : SkBuff) : Prop where
  datagram : CompleteDatagram skb → 0 ≤ env.ringbufOutput →
    0 ≤ env.skbPullData ∧ Frame.l4 + sizeofTcphdr ≤ skb.data.length
  /-- Behind IP options there can be the room; then the byte that is taken for the flags
  has no SYN, or nothing is reported anyway. -/
  tcp : ShortTcp skb → env.skbPullData < 0 ∨ env.ringbufOutput < 0 ∨
    skb.pktType = packetBroadcast ∨ skb.pktType = packetMulticast ∨
    skb.data.length < Frame.l4 + sizeofTcphdr ∨ Tcphdr.syn (Frame.tcpFlags skb.data) = false

variable {order : ByteOrder} {env : Helpers} {skb : SkBuff}

theorem CompleteDatagram.accepts_iff (h : CompleteDatagram skb) :
    Accepts skb ↔ Frame.l4 + sizeofTcphdr ≤ skb.data.length :=
  ⟨fun accepted => accepted.2.2.1,
    fun room => ⟨h.unicast.1, h.unicast.2, room, h.etherType, .inr h.protocol⟩⟩

theorem ShortTcp.accepts_iff (h : ShortTcp skb) :
    Accepts skb ↔ skb.pktType ≠ packetBroadcast ∧ skb.pktType ≠ packetMulticast ∧
      Frame.l4 + sizeofTcphdr ≤ skb.data.length ∧ Tcphdr.syn (Frame.tcpFlags skb.data) = true := by
  have traced : Frame.Traced skb.data ↔ Tcphdr.syn (Frame.tcpFlags skb.data) = true := by
    rw [Frame.Traced, h.protocol]
    simp [ipprotoTcp, ipprotoUdp]
  simp only [Accepts, traced, h.etherType, true_and]

/-- Nothing is reported without both helpers and an accepted frame. -/
theorem flat_silent_iff : (∃ code, flat order env skb = .ok (code, [])) ↔
    ¬ (0 ≤ env.skbPullData ∧ 0 ≤ env.ringbufOutput ∧ Accepts skb) := by
  rw [flat_eq]
  split
  · rename_i all
    simp [all]
  · rename_i some
    simp [some]

/-- Datagrams are reported, and short TCP packets are not, exactly in the frames whose
room for a TCP header says so. -/
theorem segmentsHandled_iff (order : ByteOrder) (env : Helpers) (skb : SkBuff) :
    SegmentsHandled order env skb ↔ RoomFits env skb := by
  constructor
  · intro handled
    constructor
    · intro datagram stored
      obtain ⟨code, ev, hflat, _⟩ := handled.datagram datagram stored
      rw [flat_eq] at hflat
      split at hflat
      · rename_i all
        exact ⟨all.1, datagram.accepts_iff.mp all.2.2⟩
      · simp at hflat
    · intro short
      have silent := flat_silent_iff.mp (handled.tcp short)
      rw [short.accepts_iff] at silent
      by_contra fits
      simp only [not_or, Bool.not_eq_false, Int.not_lt, Nat.not_lt] at fits
      tauto
  · intro room
    constructor
    · intro datagram stored
      obtain ⟨pulled, long⟩ := room.datagram datagram stored
      have accepted := datagram.accepts_iff.mpr long
      exact ⟨_, _, accepted.flat_eq ⟨pulled, stored⟩ order, ipv4Event_ports order _ _⟩
    · intro short
      rw [flat_silent_iff, short.accepts_iff]
      rintro ⟨pulled, stored, broad, multi, long, syn⟩
      rcases room.tcp short with h | h | h | h | h | h
      · exact absurd pulled (Int.not_le.mpr h)
      · exact absurd stored (Int.not_le.mpr h)
      · exact broad h
      · exact multi h
      · exact absurd long (Nat.not_le.mpr h)
      · rw [syn] at h
        contradiction

/-- Without IP options a short TCP packet is never reported. -/
theorem ShortTcp.silent_of_noOptions (h : ShortTcp skb) (noOptions : Frame.ihl skb.data = 5)
    (order : ByteOrder) (env : Helpers) : ∃ code, flat order env skb = .ok (code, []) := by
  have short := h.short
  rw [Frame.realL4_eq noOptions] at short
  exact flat_silent_iff.mpr fun all => absurd all.2.2.2.2.1 (Nat.not_le.mpr short)

/-- A datagram without a payload, from port 53 to port 40000. -/
def emptyDatagram : SkBuff where
  pktType := 0
  data := Frame.ofIpv4 64 ipprotoUdp clientIp serverIp ((Frame.udpSegment 53 40000).take 8)

theorem emptyDatagram_complete : CompleteDatagram emptyDatagram := by
  refine ⟨⟨?_, ?_⟩, ?_, ?_, ?_, ?_, ?_⟩ <;> decide

/-- It is twelve bytes short of being reported. -/
theorem emptyDatagram_refutes_segmentsHandled :
    ¬ ∀ (order : ByteOrder) (env : Helpers) (skb : SkBuff), env.Succeed →
      SegmentsHandled order env skb := by
  intro claimed
  have handled := claimed .little (.succeedAt 1000) emptyDatagram (Helpers.succeedAt_succeed 1000)
  obtain ⟨code, ev, hflat, _⟩ := handled.datagram emptyDatagram_complete (Int.le_refl 0)
  have rejected : ¬ Accepts emptyDatagram := by decide
  rw [flat_eq, if_neg fun all => rejected all.2.2] at hflat
  simp at hflat

/-! ## Headers behind IP options -/

/-- An unfragmented TCP or UDP packet with its whole transport header captured. -/
structure RealSegment (skb : SkBuff) : Prop extends IsIpv4 skb where
  unfragmented : Unfragmented skb
  captured : Frame.protocol skb.data = ipprotoTcp ∧
      Frame.realL4 skb.data + sizeofTcphdr ≤ skb.data.length ∨
    Frame.protocol skb.data = ipprotoUdp ∧
      Frame.realL4 skb.data + sizeofUdphdr ≤ skb.data.length

/-- The event has the ports and flags of the transport header, and if it is one of TCP
the header has SYN. -/
structure CarriesHeader (data : List UInt8) (ev : Record) : Prop where
  srcPort : ev.sub PacketT.offSrcPort 2 PacketT.fits.srcPort = Frame.realSrcPort data
  dstPort : ev.sub PacketT.offDstPort 2 PacketT.fits.dstPort = Frame.realDstPort data
  flags : Frame.protocol data = ipprotoTcp →
    ev.get PacketT.offSyn PacketT.fits.syn = boolByte (Tcphdr.syn (Frame.realTcpFlags data)) ∧
      ev.get PacketT.offAck PacketT.fits.ack = boolByte (Tcphdr.ack (Frame.realTcpFlags data))
  syn : Frame.protocol data = ipprotoTcp → Tcphdr.syn (Frame.realTcpFlags data) = true

def ReadsRealHeader (order : ByteOrder) (env : Helpers) (skb : SkBuff) : Prop :=
  ∀ code evs, flat order env skb = .ok (code, evs) → ∀ ev ∈ evs, CarriesHeader skb.data ev

/-- Behind the first twenty bytes of the IPv4 header there are the same ports and flags
as behind the last of its options. -/
structure LooksAlike (data : List UInt8) : Prop where
  srcPort : Frame.srcPort data = Frame.realSrcPort data
  dstPort : Frame.dstPort data = Frame.realDstPort data
  flags : Frame.protocol data = ipprotoTcp →
    Tcphdr.syn (Frame.tcpFlags data) = Tcphdr.syn (Frame.realTcpFlags data) ∧
      Tcphdr.ack (Frame.tcpFlags data) = Tcphdr.ack (Frame.realTcpFlags data)

theorem LooksAlike.of_noOptions {data : List UInt8} (h : Frame.ihl data = 5) : LooksAlike data := by
  refine ⟨?_, ?_, fun _ => ?_⟩ <;>
    simp only [Frame.realSrcPort, Frame.realDstPort, Frame.realTcpFlags, Frame.realL4_eq h,
      Frame.srcPort, Frame.dstPort, Frame.tcpFlags, and_self]

theorem boolByte_injective {a b : Bool} (h : boolByte a = boolByte b) : a = b := by
  rw [← boolByte_eq_one a, h, boolByte_eq_one]

/-- The flags of a TCP event, for either byte order. -/
theorem ipv4Event_tcpFlags {data : List UInt8} (tcp : Frame.protocol data = ipprotoTcp)
    (order : ByteOrder) (now : UInt64) :
    (ipv4Event order data now).get PacketT.offSyn PacketT.fits.syn =
        boolByte (Tcphdr.syn (Frame.tcpFlags data)) ∧
      (ipv4Event order data now).get PacketT.offAck PacketT.fits.ack =
        boolByte (Tcphdr.ack (Frame.tcpFlags data)) := by
  simp only [Region.get_eq_iff, ipv4Event, ipv4Record, transportStores, stamp, if_pos tcp]
  simp [Region.ofByte]

/-- The event of a frame with the same ports and flags in both places, and only such an
event, carries the real header. -/
theorem carriesHeader_ipv4Event_iff (accepted : Accepts skb) (order : ByteOrder) (now : UInt64) :
    CarriesHeader skb.data (ipv4Event order skb.data now) ↔ LooksAlike skb.data := by
  obtain ⟨src, dst⟩ := ipv4Event_ports order skb.data now
  constructor
  · intro carries
    refine ⟨src.symm.trans carries.srcPort, dst.symm.trans carries.dstPort, fun tcp => ?_⟩
    obtain ⟨syn, ack⟩ := ipv4Event_tcpFlags tcp order now
    obtain ⟨realSyn, realAck⟩ := carries.flags tcp
    exact ⟨boolByte_injective (syn.symm.trans realSyn), boolByte_injective (ack.symm.trans realAck)⟩
  · intro alike
    refine ⟨src.trans alike.srcPort, dst.trans alike.dstPort, fun tcp => ?_, fun tcp => ?_⟩
    · obtain ⟨syn, ack⟩ := ipv4Event_tcpFlags tcp order now
      obtain ⟨sameSyn, sameAck⟩ := alike.flags tcp
      exact ⟨by rw [syn, sameSyn], by rw [ack, sameAck]⟩
    · have traced : Tcphdr.syn (Frame.tcpFlags skb.data) = true := by
        rcases accepted.2.2.2.2 with ⟨_, syn⟩ | udp
        · exact syn
        · rw [tcp] at udp
          contradiction
      rw [← (alike.flags tcp).1, traced]

/-- Events come from the real header if and only if there is no event, or the bytes that
are read look like that header. -/
theorem readsRealHeader_iff (order : ByteOrder) (env : Helpers) (skb : SkBuff) :
    ReadsRealHeader order env skb ↔
      env.skbPullData < 0 ∨ env.ringbufOutput < 0 ∨ ¬ Accepts skb ∨ LooksAlike skb.data := by
  by_cases emitted : 0 ≤ env.skbPullData ∧ 0 ≤ env.ringbufOutput ∧ Accepts skb
  · obtain ⟨pulled, stored, accepted⟩ := emitted
    have event := accepted.flat_eq ⟨pulled, stored⟩ order
    have reads : ReadsRealHeader order env skb ↔
        CarriesHeader skb.data (ipv4Event order skb.data env.ktimeGetNs) := by
      constructor
      · exact fun reads => reads _ _ event _ (List.mem_singleton_self _)
      · intro carries code evs hflat ev hev
        rw [event, Except.ok.injEq, Prod.mk.injEq] at hflat
        rw [← hflat.2, List.mem_singleton] at hev
        exact hev ▸ carries
    rw [reads, carriesHeader_ipv4Event_iff accepted]
    constructor
    · exact fun alike => .inr (.inr (.inr alike))
    · rintro (failed | failed | rejected | alike)
      · exact absurd pulled (Int.not_le.mpr failed)
      · exact absurd stored (Int.not_le.mpr failed)
      · exact absurd accepted rejected
      · exact alike
  · constructor
    · intro _
      by_contra none
      simp only [not_or, Int.not_lt, not_not] at none
      exact emitted ⟨none.1, none.2.1, none.2.2.1⟩
    · intro _ code evs hflat ev hev
      rw [flat_eq, if_neg emitted, Except.ok.injEq, Prod.mk.injEq] at hflat
      rw [← hflat.2] at hev
      contradiction

/-- Without IP options the real header is read. -/
theorem readsRealHeader_of_noOptions (noOptions : Frame.ihl skb.data = 5) (order : ByteOrder)
    (env : Helpers) : ReadsRealHeader order env skb :=
  (readsRealHeader_iff order env skb).mpr (.inr (.inr (.inr (.of_noOptions noOptions))))

/-- A frame with one word of IP options. -/
def Frame.ofIpv4Option (protocol : UInt8) (saddr daddr option : Region 4) (segment : List UInt8) :
    List UInt8 :=
  List.replicate 12 0 ++ [0x08, 0x00] ++ [0x46, 0, 0, 44, 0, 0, 0x40, 0, 64, protocol, 0, 0] ++
    saddr.bytes ++ daddr.bytes ++ option.bytes ++ segment

/-- A TCP segment from port 40000 to port 443 with ACK and without SYN, whose
acknowledgement number has the SYN bit where the flags are looked for. -/
def ackSegment : List UInt8 :=
  ByteOrder.big.bytes16 40000 ++ ByteOrder.big.bytes16 443 ++ [0, 0, 0, 1] ++ [0, 2, 0, 0] ++
    [0x50, 0x10] ++ List.replicate 6 0

/-- The segment behind four bytes of options. -/
def optionFrame : SkBuff where
  pktType := 0
  data := Frame.ofIpv4Option ipprotoTcp clientIp serverIp (Region.zero 4) ackSegment

theorem optionFrame_realSegment : RealSegment optionFrame := by
  refine ⟨⟨?_, ?_⟩, ?_, .inl ⟨?_, ?_⟩⟩ <;> decide

/-- A segment without SYN is reported, from port 0 to port 0. -/
theorem optionFrame_refutes_realHeader :
    ¬ ∀ (order : ByteOrder) (env : Helpers) (skb : SkBuff), RealSegment skb →
      ReadsRealHeader order env skb := by
  intro claimed
  have reads := claimed .little (.succeedAt 1000) optionFrame optionFrame_realSegment
  have accepted : Accepts optionFrame := by decide
  have event := accepted.flat_eq (Helpers.succeedAt_succeed 1000) .little
  have carries := reads _ _ event _ (List.mem_singleton_self _)
  exact absurd (carries.syn (by decide)) (by decide)

end Xcnf.Flow
