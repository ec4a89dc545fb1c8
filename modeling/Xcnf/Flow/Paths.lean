import Xcnf.Flow.Accept

/-!
# One segment behind either IP header

The same transport segment, announced with the same protocol and the same remaining
hops, once behind an IPv4 header and once behind an IPv6 header. `PathsAgree` says that
the two cases of the network switch treat the frames alike. The IPv4 case lets a packet
through unless it is neither TCP nor UDP; the IPv6 case writes the same test with `||`
and lets no packet through.
-/

namespace Xcnf.Flow

namespace Frame

/-! Fields of an IPv6 frame. -/

def nexthdr (data : List UInt8) : UInt8 := Buffer.byteAt data 20
def hopLimit (data : List UInt8) : UInt8 := Buffer.byteAt data 21
def saddr6 (data : List UInt8) : Region 16 := Buffer.peek data 22 16
def daddr6 (data : List UInt8) : Region 16 := Buffer.peek data 38 16

end Frame

/-- A UDP segment or a TCP segment with SYN, of at least 20 bytes, in an IPv4 packet
without options and not fragmented, and in an IPv6 packet without extension headers. -/
structure SameSegment (skb4 skb6 : SkBuff) : Prop where
  unicast4 : skb4.pktType ≠ packetBroadcast ∧ skb4.pktType ≠ packetMulticast
  unicast6 : skb6.pktType ≠ packetBroadcast ∧ skb6.pktType ≠ packetMulticast
  etherType4 : Frame.etherType skb4.data = ethPIp
  etherType6 : Frame.etherType skb6.data = ethPIpv6
  ihl : Buffer.byteAt skb4.data 14 = 0x45
  unfragmented : (Buffer.peek skb4.data 20 2).toWord16 .big &&& 0x3fff = 0
  segment : skb4.data.drop 34 = skb6.data.drop 54
  complete : 20 ≤ (skb4.data.drop 34).length
  traced : Frame.Traced skb4.data
  protocol : Frame.nexthdr skb6.data = Frame.protocol skb4.data
  hops : Frame.hopLimit skb6.data = Frame.ttl skb4.data

/-- Both frames are recorded or neither is, and two records hold the same ports,
protocol, ttl and flags, the second with the addresses of the IPv6 header. -/
def PathsAgree (order : ByteOrder) (env : Helpers) (skb4 skb6 : SkBuff) : Prop :=
  ∃ code4 code6 evs4 evs6,
    flat order env skb4 = .ok (code4, evs4) ∧ flat order env skb6 = .ok (code6, evs6) ∧
    (evs4 = [] ↔ evs6 = []) ∧
    ∀ ev4 ∈ evs4, ∀ ev6 ∈ evs6,
      ev6.load PacketT.offSrcPort 8 = ev4.load PacketT.offSrcPort 8 ∧
      ev6.sub PacketT.offSrcIp 16 PacketT.fits.srcIp = Frame.saddr6 skb6.data ∧
      ev6.sub PacketT.offDstIp 16 PacketT.fits.dstIp = Frame.daddr6 skb6.data

/-- No IPv6 frame is recorded. -/
theorem flat_ipv6 {skb : SkBuff} (h : Frame.etherType skb.data = ethPIpv6) (order : ByteOrder)
    (env : Helpers) : flat order env skb = .ok (tcActOk, []) := by
  have rejected : ¬ Accepts skb := by
    rintro ⟨_, _, _, htype, _⟩
    rw [h] at htype
    exact absurd htype (by decide)
  rw [flat_eq, if_neg (fun all => rejected all.2.2)]

theorem SameSegment.accepts {skb4 skb6 : SkBuff} (h : SameSegment skb4 skb6) : Accepts skb4 := by
  have complete := h.complete
  rw [List.length_drop] at complete
  refine ⟨h.unicast4.1, h.unicast4.2, ?_, h.etherType4, h.traced⟩
  simp only [Frame.l4, sizeofTcphdr]
  omega

/-- The two paths agree only where no frame at all can be recorded, because a helper
fails. -/
theorem pathsAgree_iff {skb4 skb6 : SkBuff} (h : SameSegment skb4 skb6) (order : ByteOrder)
    (env : Helpers) :
    PathsAgree order env skb4 skb6 ↔ env.skbPullData < 0 ∨ env.ringbufOutput < 0 := by
  have six := flat_ipv6 h.etherType6 order env
  constructor
  · rintro ⟨code4, code6, evs4, evs6, hflat4, hflat6, same, _⟩
    rw [six, Except.ok.injEq, Prod.mk.injEq] at hflat6
    obtain ⟨_, rfl⟩ := hflat6
    obtain rfl := same.mpr rfl
    by_contra succeed
    obtain ⟨pulled, appended⟩ := not_or.mp succeed
    rw [h.accepts.flat_eq ⟨Int.not_lt.mp pulled, Int.not_lt.mp appended⟩ order] at hflat4
    simp at hflat4
  · intro fails
    have four : flat order env skb4 = .ok (tcActOk, []) := by
      rw [flat_eq, if_neg]
      rintro ⟨pulled, appended, _⟩
      exact fails.elim (Int.not_lt.mpr pulled) (Int.not_lt.mpr appended)
    exact ⟨tcActOk, tcActOk, [], [], four, six, Iff.rfl, by simp⟩

/-- The datagram `datagram4` over IPv6. -/
def datagram6 : SkBuff where
  pktType := 0
  data := Frame.ofIpv6 ipprotoUdp 64 (Region.zero 16) (Region.zero 16)
    (Frame.udpSegment 53 40000)

theorem datagram_sameSegment : SameSegment datagram4 datagram6 := by
  refine ⟨?_, ?_, ?_, ?_, ?_, ?_, ?_, ?_, ?_, ?_, ?_⟩ <;> decide

theorem datagram_pathsAgree_iff :
    PathsAgree .little (.succeedAt 1000) datagram4 datagram6 ↔ (0 : Int) < 0 ∨ (0 : Int) < 0 :=
  pathsAgree_iff datagram_sameSegment .little (.succeedAt 1000)

/-- The datagram is recorded over IPv4 and not over IPv6. -/
theorem datagram_refutes_agreement :
    ¬ ∀ (order : ByteOrder) (env : Helpers) (skb4 skb6 : SkBuff), SameSegment skb4 skb6 →
      PathsAgree order env skb4 skb6 := by
  intro claimed
  obtain ⟨code4, code6, evs4, evs6, hflat4, hflat6, same, _⟩ :=
    claimed .little (.succeedAt 1000) datagram4 datagram6 datagram_sameSegment
  rw [flat_ipv6 datagram_sameSegment.etherType6, Except.ok.injEq, Prod.mk.injEq] at hflat6
  obtain ⟨_, rfl⟩ := hflat6
  obtain rfl := same.mpr rfl
  rw [datagram_sameSegment.accepts.flat_eq (Helpers.succeedAt_succeed 1000)] at hflat4
  simp at hflat4

end Xcnf.Flow
