import Xcnf.Flow.Flat

/-!
# What `flat` accepts and what it emits

The header fields of a frame are read here at their fixed places, for the IPv4 header
length the program assumes. `flatParse_eq` and `flat_eq` are the specifications of the
program used everywhere else: no path faults, the returned code is always `TC_ACT_OK`,
and the record appended, if any, is `ipv4Event`. No IPv6 frame is ever accepted.
-/

namespace Xcnf.Flow

/-! ## Header fields of a frame -/

namespace Frame

/-- The EtherType. -/
def etherType (data : List UInt8) : UInt16 := (Buffer.peek data 12 2).toWord16 .big

/-- Where the transport header starts behind an IPv4 header without options. -/
@[simp] def l4 : Nat := 34

def ttl (data : List UInt8) : UInt8 := Buffer.byteAt data 22
def protocol (data : List UInt8) : UInt8 := Buffer.byteAt data 23
def saddr (data : List UInt8) : Region 4 := Buffer.peek data 26 4
def daddr (data : List UInt8) : Region 4 := Buffer.peek data 30 4
def srcPort (data : List UInt8) : Region 2 := Buffer.peek data l4 2
def dstPort (data : List UInt8) : Region 2 := Buffer.peek data (l4 + 2) 2
def tcpFlags (data : List UInt8) : UInt8 := Buffer.byteAt data (l4 + 13)

/-- Protocol TCP with SYN set, or UDP. -/
def Traced (data : List UInt8) : Prop :=
  protocol data = ipprotoTcp ∧ Tcphdr.syn (tcpFlags data) ∨ protocol data = ipprotoUdp

instance (data : List UInt8) : Decidable (Traced data) := inferInstanceAs (Decidable (_ ∨ _))

/-! Frames with the header fields given, to run the program on: no options, no fragment,
and zeros in the fields that are never read. -/

def ofIpv4 (ttl protocol : UInt8) (saddr daddr : Region 4) (segment : List UInt8) : List UInt8 :=
  List.replicate 12 0 ++ [0x08, 0x00] ++ [0x45, 0, 0, 40, 0, 0, 0x40, 0, ttl, protocol, 0, 0] ++
    saddr.bytes ++ daddr.bytes ++ segment

def ofIpv6 (nexthdr hopLimit : UInt8) (saddr daddr : Region 16) (segment : List UInt8) :
    List UInt8 :=
  List.replicate 12 0 ++ [0x86, 0xDD] ++ [0x60, 0, 0, 0, 0, 20, nexthdr, hopLimit] ++
    saddr.bytes ++ daddr.bytes ++ segment

def tcpSegment (source dest : UInt16) (flags : UInt8) : List UInt8 :=
  ByteOrder.big.bytes16 source ++ ByteOrder.big.bytes16 dest ++ List.replicate 8 0 ++
    [0x50, flags] ++ List.replicate 6 0

def udpSegment (source dest : UInt16) : List UInt8 :=
  ByteOrder.big.bytes16 source ++ ByteOrder.big.bytes16 dest ++ [0, 20, 0, 0] ++
    List.replicate 12 0

end Frame

/-- 10.0.0.1. -/
def clientIp : Region 4 := ⟨[10, 0, 0, 1], rfl⟩

/-- 10.0.0.2. -/
def serverIp : Region 4 := ⟨[10, 0, 0, 2], rfl⟩

/-- A SYN from 10.0.0.1:40000 to 10.0.0.2:443. -/
def synFrame : SkBuff where
  pktType := 0
  data := Frame.ofIpv4 64 ipprotoTcp clientIp serverIp (Frame.tcpSegment 40000 443 0x02)

/-- A datagram from port 53 to port 40000, over IPv4. -/
def datagram4 : SkBuff where
  pktType := 0
  data := Frame.ofIpv4 64 ipprotoUdp clientIp serverIp (Frame.udpSegment 53 40000)

/-- The frames a record is made for, when the pull succeeds. -/
def Accepts (skb : SkBuff) : Prop :=
  skb.pktType ≠ packetBroadcast ∧ skb.pktType ≠ packetMulticast ∧
    Frame.l4 + sizeofTcphdr ≤ skb.data.length ∧
    Frame.etherType skb.data = ethPIp ∧ Frame.Traced skb.data

instance (skb : SkBuff) : Decidable (Accepts skb) := inferInstanceAs (Decidable (_ ∧ _))

/-! ## The record -/

/-- The stores of the IPv4 case, in program order. -/
def ipv4Stores (order : ByteOrder) (data : List UInt8) (pkt : Record) : Record :=
  pkt
    |>.store (PacketT.offSrcIp + 4 * 3) (Frame.saddr data) PacketT.fits.srcIpWord3
    |>.store (PacketT.offDstIp + 4 * 3) (Frame.daddr data) PacketT.fits.dstIpWord3
    |>.store (PacketT.offSrcIp + 4 * 5) (.ofWord32 order 0xffff) PacketT.fits.srcIpWord5
    |>.store (PacketT.offDstIp + 4 * 5) (.ofWord32 order 0xffff) PacketT.fits.dstIpWord5
    |>.store PacketT.offProtocol (.ofByte (Frame.protocol data)) PacketT.fits.protocol
    |>.store PacketT.offTtl (.ofByte (Frame.ttl data)) PacketT.fits.ttl

/-- The stores of the transport switch. -/
def transportStores (data : List UInt8) (pkt : Record) : Record :=
  let pkt := pkt
    |>.store PacketT.offSrcPort (Frame.srcPort data) PacketT.fits.srcPort
    |>.store PacketT.offDstPort (Frame.dstPort data) PacketT.fits.dstPort
  if Frame.protocol data = ipprotoTcp then
    pkt
      |>.store PacketT.offSyn (.ofByte (boolByte (Tcphdr.syn (Frame.tcpFlags data))))
          PacketT.fits.syn
      |>.store PacketT.offAck (.ofByte (boolByte (Tcphdr.ack (Frame.tcpFlags data))))
          PacketT.fits.ack
  else
    pkt

/-- The record made for an accepted frame, before it is stamped. -/
def ipv4Record (order : ByteOrder) (data : List UInt8) : Record :=
  transportStores data (ipv4Stores order data (Region.zero sizeofPacketT))

/-- The record appended to `pipe`. -/
def ipv4Event (order : ByteOrder) (data : List UInt8) (now : UInt64) : Record :=
  stamp order (ipv4Record order data) now

/-! ## The program meets the description -/

variable {order : ByteOrder} {data : List UInt8} {pkt : Record}

theorem ipv4Case_eq (pkt : Record) : ipv4Case order data pkt =
    .ok (if 34 ≤ data.length ∧
        (Frame.protocol data = ipprotoTcp ∨ Frame.protocol data = ipprotoUdp)
      then some (ipv4Stores order data pkt, Frame.l4) else none) := by
  by_cases hlen : data.length < 34
  · have hno : ¬ (34 ≤ data.length ∧
        (Frame.protocol data = ipprotoTcp ∨ Frame.protocol data = ipprotoUdp)) := by omega
    rw [if_neg hno, ipv4Case]
    exact if_pos hlen
  have hproto : Buffer.load8 data 23 = .ok (Frame.protocol data) := Buffer.load8_ok (by omega)
  have httl : Buffer.load8 data 22 = .ok (Frame.ttl data) := Buffer.load8_ok (by omega)
  have hsaddr : Buffer.load data 26 4 = .ok (Frame.saddr data) := Buffer.load_ok (by omega)
  have hdaddr : Buffer.load data 30 4 = .ok (Frame.daddr data) := Buffer.load_ok (by omega)
  by_cases hp : Frame.protocol data = ipprotoTcp ∨ Frame.protocol data = ipprotoUdp
  · have hguard : ¬ (Frame.protocol data ≠ ipprotoTcp ∧ Frame.protocol data ≠ ipprotoUdp) :=
      fun h => hp.elim h.1 h.2
    have hyes : 34 ≤ data.length ∧
        (Frame.protocol data = ipprotoTcp ∨ Frame.protocol data = ipprotoUdp) := ⟨by omega, hp⟩
    rw [if_pos hyes]
    simp only [ipv4Case, sizeofEthhdr, sizeofIphdr, Iphdr.protocol, Iphdr.saddr, Iphdr.daddr,
      Iphdr.ttl, Nat.reduceAdd, hproto, httl, hsaddr, hdaddr, Checked.ok_bind, if_neg hguard,
      Region.ofWord32_toWord32]
    exact if_neg hlen
  · have hguard := not_or.mp hp
    simp [ipv4Case, hproto, hguard]

/-- The protocol test of the IPv6 case rejects every packet. -/
theorem ipv6Case_eq (pkt : Record) : ipv6Case data pkt = .ok none := by
  by_cases hlen : data.length < 54
  · exact if_pos hlen
  · have hnext : Buffer.load8 data 20 = .ok (Buffer.byteAt data 20) := Buffer.load8_ok (by omega)
    have hguard : Buffer.byteAt data 20 ≠ ipprotoTcp ∨ Buffer.byteAt data 20 ≠ ipprotoUdp := by
      by_cases h : Buffer.byteAt data 20 = ipprotoTcp
      · exact .inr (h ▸ by decide)
      · exact .inl h
    simp only [ipv6Case, sizeofEthhdr, Ipv6hdr.nexthdr, hnext, Checked.ok_bind, if_pos hguard]
    exact if_neg hlen

theorem networkSwitch_eq (hlen : 14 ≤ data.length) (pkt : Record) :
    networkSwitch order data pkt =
      .ok (if Frame.etherType data = ethPIp ∧ 34 ≤ data.length ∧
          (Frame.protocol data = ipprotoTcp ∨ Frame.protocol data = ipprotoUdp)
        then some (ipv4Stores order data pkt, Frame.l4) else none) := by
  have hload : Buffer.load data 12 2 = .ok (Buffer.peek data 12 2) := Buffer.load_ok hlen
  simp only [networkSwitch, Ethhdr.hProto, hload, Checked.ok_bind, bpfNtohs_toWord16]
  change (if Frame.etherType data = ethPIp then _ else _) = _
  by_cases h4 : Frame.etherType data = ethPIp
  · simp [h4, ipv4Case_eq]
  · simp [h4, ipv6Case_eq]

theorem ipv4Stores_protocol (pkt : Record) :
    (ipv4Stores order data pkt).get PacketT.offProtocol = Frame.protocol data := by
  rw [Region.get_eq_iff]
  simp [ipv4Stores, Region.ofByte]

theorem storePorts_eq (hlen : Frame.l4 + sizeofTcphdr ≤ data.length) (pkt : Record) :
    storePorts order data pkt Frame.l4 (Frame.l4 + 2) =
      .ok ((pkt.store PacketT.offSrcPort (Frame.srcPort data)).store PacketT.offDstPort
        (Frame.dstPort data)) := by
  simp only [Frame.l4, sizeofTcphdr] at hlen
  have hsrc : Buffer.load data 34 2 = .ok (Frame.srcPort data) := Buffer.load_ok (by omega)
  have hdst : Buffer.load data 36 2 = .ok (Frame.dstPort data) := Buffer.load_ok (by omega)
  simp [storePorts, hsrc, hdst]

theorem transportSwitch_eq (hlen : Frame.l4 + sizeofTcphdr ≤ data.length)
    (hp : pkt.get PacketT.offProtocol = Frame.protocol data) :
    transportSwitch order data pkt Frame.l4 =
      .ok (if Frame.Traced data then .send (transportStores data pkt) else .exit tcActOk) := by
  have hflags : Buffer.load8 data (Frame.l4 + 13) = .ok (Frame.tcpFlags data) :=
    Buffer.load8_ok (by simp only [Frame.l4, sizeofTcphdr] at hlen ⊢; omega)
  have hports : storePorts order data pkt Frame.l4 (Frame.l4 + 2) = _ := storePorts_eq hlen pkt
  simp only [transportSwitch, hp, Tcphdr.flags, Tcphdr.source, Tcphdr.dest, Udphdr.source,
    Udphdr.dest, Nat.add_zero, hflags, hports, Checked.ok_bind, Checked.pure_eq_ok]
  by_cases htcp : Frame.protocol data = ipprotoTcp
  · cases hsyn : Tcphdr.syn (Frame.tcpFlags data) with
    | true => simp [htcp, hsyn, Frame.Traced, transportStores]
    | false => simp [htcp, hsyn, Frame.Traced, ipprotoTcp, ipprotoUdp, tcActOk]
  · by_cases hudp : Frame.protocol data = ipprotoUdp
    · simp [hudp, Frame.Traced, transportStores, ipprotoTcp, ipprotoUdp]
    · simp [htcp, hudp, Frame.Traced]

/-- The part of `flat` before the clock: no fault, and a record exactly for the
accepted frames. -/
theorem flatParse_eq (order : ByteOrder) (pulled : Int) (skb : SkBuff) :
    flatParse order pulled skb =
      .ok (if 0 ≤ pulled ∧ Accepts skb then .send (ipv4Record order skb.data)
        else .exit tcActOk) := by
  by_cases hpull : pulled < 0
  · rw [if_neg (fun h => absurd h.1 (Int.not_le.mpr hpull)), flatParse]
    exact if_pos hpull
  by_cases hcast : skb.pktType = packetBroadcast ∨ skb.pktType = packetMulticast
  · rw [if_neg (fun h => hcast.elim h.2.1 h.2.2.1)]
    simp [flatParse, hpull, hcast]
  by_cases heth : sizeofEthhdr > skb.data.length
  · have hno : ¬ (0 ≤ pulled ∧ Accepts skb) := by
      rintro ⟨_, _, _, hlen, _⟩
      simp only [Frame.l4, sizeofTcphdr, sizeofEthhdr] at hlen heth
      omega
    rw [if_neg hno]
    simp only [flatParse, if_neg hpull, if_neg hcast, if_pos heth]
    rfl
  have hnet : networkSwitch order skb.data (Region.zero sizeofPacketT) = _ :=
    networkSwitch_eq (Nat.not_lt.mp heth) (Region.zero sizeofPacketT)
  simp only [flatParse, if_neg hpull, if_neg hcast, if_neg heth]
  rw [hnet, Checked.ok_bind]
  obtain ⟨hbroad, hmulti⟩ := not_or.mp hcast
  by_cases hshort : Frame.l4 + sizeofTcphdr ≤ skb.data.length
  · have hroom : ¬ (Frame.l4 + sizeofTcphdr > skb.data.length ∨
        Frame.l4 + sizeofUdphdr > skb.data.length) := by
      simp only [Frame.l4, sizeofTcphdr, sizeofUdphdr] at hshort ⊢
      omega
    have hlen : 34 ≤ skb.data.length := by
      simp only [Frame.l4, sizeofTcphdr] at hshort
      omega
    by_cases hkind : Frame.etherType skb.data = ethPIp ∧
        (Frame.protocol skb.data = ipprotoTcp ∨ Frame.protocol skb.data = ipprotoUdp)
    · have hpull' : 0 ≤ pulled := by omega
      simp only [hkind, hlen, and_self, if_true, if_neg hroom]
      rw [transportSwitch_eq hshort (ipv4Stores_protocol _)]
      simp only [Accepts, hbroad, hmulti, hshort, hkind.1, hpull', ne_eq, not_false_eq_true,
        true_and, ipv4Record]
    · have hno : ¬ (0 ≤ pulled ∧ Accepts skb) := by
        rintro ⟨_, _, _, _, htype, htraced⟩
        exact hkind ⟨htype, htraced.imp And.left id⟩
      rw [if_neg hno, if_neg (fun h => hkind ⟨h.1, h.2.2⟩)]
      rfl
  · have hno : ¬ (0 ≤ pulled ∧ Accepts skb) := fun h => hshort h.2.2.2.1
    rw [if_neg hno]
    by_cases hkind : Frame.etherType skb.data = ethPIp ∧ 34 ≤ skb.data.length ∧
        (Frame.protocol skb.data = ipprotoTcp ∨ Frame.protocol skb.data = ipprotoUdp)
    · simp only [if_pos hkind]
      exact if_pos (.inl (Nat.not_le.mp hshort))
    · simp only [if_neg hkind]
      rfl

/-- The whole program: it returns `TC_ACT_OK`, and appends the event of an accepted frame
when both helpers succeed. -/
theorem flat_eq (order : ByteOrder) (env : Helpers) (skb : SkBuff) :
    flat order env skb =
      .ok (tcActOk, if 0 ≤ env.skbPullData ∧ 0 ≤ env.ringbufOutput ∧ Accepts skb
        then [ipv4Event order skb.data env.ktimeGetNs] else []) := by
  rw [flat, flatParse_eq, Checked.ok_bind]
  by_cases hsend : 0 ≤ env.skbPullData ∧ Accepts skb
  · rw [if_pos hsend]
    by_cases hout : env.ringbufOutput < 0
    · rw [if_neg (fun h => absurd h.2.1 (Int.not_le.mpr hout))]
      exact if_pos hout
    · rw [if_pos ⟨hsend.1, Int.not_lt.mp hout, hsend.2⟩]
      exact if_neg hout
  · rw [if_neg hsend, if_neg (fun h => hsend ⟨h.1, h.2.2⟩)]
    rfl

/-- No helper fails. -/
structure Helpers.Succeed (env : Helpers) : Prop where
  skbPullData : 0 ≤ env.skbPullData
  ringbufOutput : 0 ≤ env.ringbufOutput

/-- Both helpers succeed, at the given time. -/
def Helpers.succeedAt (now : UInt64) : Helpers where
  skbPullData := 0
  ktimeGetNs := now
  ringbufOutput := 0

theorem Helpers.succeedAt_succeed (now : UInt64) : (Helpers.succeedAt now).Succeed :=
  ⟨Int.le_refl 0, Int.le_refl 0⟩

theorem Accepts.flat_eq {env : Helpers} {skb : SkBuff} (accepted : Accepts skb)
    (succeed : env.Succeed) (order : ByteOrder) :
    flat order env skb = .ok (tcActOk, [ipv4Event order skb.data env.ktimeGetNs]) := by
  rw [Flow.flat_eq, if_pos ⟨succeed.skbPullData, succeed.ringbufOutput, accepted⟩]

theorem flat_emits {env : Helpers} {skb : SkBuff} {code : Int} {ev : Record}
    (h : flat order env skb = .ok (code, [ev])) :
    Accepts skb ∧ ev = ipv4Event order skb.data env.ktimeGetNs := by
  rw [flat_eq] at h
  split at h
  · rename_i hyes
    simp only [Except.ok.injEq, Prod.mk.injEq, List.cons.injEq, and_true] at h
    exact ⟨hyes.2.2, h.2.symm⟩
  · simp at h

end Xcnf.Flow
