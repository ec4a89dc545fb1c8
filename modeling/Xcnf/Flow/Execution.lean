import Xcnf.Lib.PacketProgram
import Xcnf.Flow.Accept

/-!
# `flat` on memory

The program once more, now as a `PacketProgram`: the packet is read through pointers, and
the record goes to the ring buffer by a helper call. It does what `flat` says
(`flat_run`), and since `flat` never faults all of its reads are inside the packet.
-/

namespace Xcnf.Flow.Exec

open PacketProgram

/-- `case ETH_P_IP`, where `tail` is the offset of `data_end`. -/
def ipv4Case (order : ByteOrder) (tail : Nat) (pkt : Record) :
    Program (Option (Record × Nat)) := do
  let offset := sizeofEthhdr + sizeofIphdr
  if offset > tail then
    return none
  let ip := packetStart.add sizeofEthhdr
  let protocol ← load8 (ip.add Iphdr.protocol)
  if protocol ≠ ipprotoTcp ∧ protocol ≠ ipprotoUdp then
    return none
  let saddr ← load (ip.add Iphdr.saddr) 4
  let pkt := pkt.store (PacketT.offSrcIp + 4 * 3) (.ofWord32 order (saddr.toWord32 order))
    PacketT.fits.srcIpWord3
  let daddr ← load (ip.add Iphdr.daddr) 4
  let pkt := pkt.store (PacketT.offDstIp + 4 * 3) (.ofWord32 order (daddr.toWord32 order))
    PacketT.fits.dstIpWord3
  let pkt := pkt.store (PacketT.offSrcIp + 4 * 5) (.ofWord32 order 0xffff) PacketT.fits.srcIpWord5
  let pkt := pkt.store (PacketT.offDstIp + 4 * 5) (.ofWord32 order 0xffff) PacketT.fits.dstIpWord5
  let pkt := pkt.store PacketT.offProtocol (.ofByte protocol) PacketT.fits.protocol
  let ttl ← load8 (ip.add Iphdr.ttl)
  let pkt := pkt.store PacketT.offTtl (.ofByte ttl) PacketT.fits.ttl
  return some (pkt, offset)

/-- `case ETH_P_IPV6`. -/
def ipv6Case (tail : Nat) (pkt : Record) : Program (Option (Record × Nat)) := do
  let offset := sizeofEthhdr + sizeofIpv6hdr
  if offset > tail then
    return none
  let ipv6 := packetStart.add sizeofEthhdr
  let nexthdr ← load8 (ipv6.add Ipv6hdr.nexthdr)
  if nexthdr ≠ ipprotoTcp ∨ nexthdr ≠ ipprotoUdp then
    return none
  let saddr ← load (ipv6.add Ipv6hdr.saddr) 16
  let pkt := pkt.store PacketT.offSrcIp saddr PacketT.fits.srcIp
  let daddr ← load (ipv6.add Ipv6hdr.daddr) 16
  let pkt := pkt.store PacketT.offDstIp daddr PacketT.fits.dstIp
  let pkt := pkt.store PacketT.offProtocol (.ofByte nexthdr) PacketT.fits.protocol
  let hopLimit ← load8 (ipv6.add Ipv6hdr.hopLimit)
  let pkt := pkt.store PacketT.offTtl (.ofByte hopLimit) PacketT.fits.ttl
  return some (pkt, offset)

/-- `switch (bpf_ntohs(eth->h_proto))`. -/
def networkSwitch (order : ByteOrder) (tail : Nat) (pkt : Record) :
    Program (Option (Record × Nat)) := do
  let hProto ← load (packetStart.add Ethhdr.hProto) 2
  let proto := bpfNtohs order (hProto.toWord16 order)
  if proto = ethPIp then
    ipv4Case order tail pkt
  else if proto = ethPIpv6 then
    ipv6Case tail pkt
  else
    return none

/-- The ports, from pointers to the two fields of the transport header. -/
def storePorts (order : ByteOrder) (pkt : Record) (source dest : Ptr) : Program Record := do
  let src ← load source 2
  let pkt := pkt.store PacketT.offSrcPort (.ofWord16 order (src.toWord16 order))
    PacketT.fits.srcPort
  let dst ← load dest 2
  return pkt.store PacketT.offDstPort (.ofWord16 order (dst.toWord16 order)) PacketT.fits.dstPort

/-- `switch (pkt.protocol)`, up to the clock. -/
def transportSwitch (order : ByteOrder) (pkt : Record) (offset : Nat) : Program Verdict := do
  if pkt.get PacketT.offProtocol PacketT.fits.protocol = ipprotoTcp then
    let tcp := packetStart.add offset
    let flags ← load8 (tcp.add Tcphdr.flags)
    if Tcphdr.syn flags then
      let pkt ← storePorts order pkt (tcp.add Tcphdr.source) (tcp.add Tcphdr.dest)
      let pkt := pkt.store PacketT.offSyn (.ofByte (boolByte (Tcphdr.syn flags))) PacketT.fits.syn
      let pkt := pkt.store PacketT.offAck (.ofByte (boolByte (Tcphdr.ack flags))) PacketT.fits.ack
      return .send pkt
    else
      return .exit 0
  else if pkt.get PacketT.offProtocol PacketT.fits.protocol = ipprotoUdp then
    let udp := packetStart.add offset
    let pkt ← storePorts order pkt (udp.add Udphdr.source) (udp.add Udphdr.dest)
    return .send pkt
  else
    return .exit tcActOk

/-- `flat` up to `bpf_ktime_get_ns`. -/
def flatParse (order : ByteOrder) (pulled : Int) (pktType : UInt32) : Program Verdict := do
  if pulled < 0 then
    return .exit tcActOk
  if pktType = packetBroadcast ∨ pktType = packetMulticast then
    return .exit tcActOk
  let tail ← dataEnd
  if sizeofEthhdr > tail then
    return .exit tcActOk
  match ← networkSwitch order tail (Region.zero sizeofPacketT) with
  | none => return .exit tcActOk
  | some (pkt, offset) =>
    if offset + sizeofTcphdr > tail ∨ offset + sizeofUdphdr > tail then
      return .exit tcActOk
    transportSwitch order pkt offset

/-- One invocation. -/
def flat (order : ByteOrder) (env : Helpers) (pktType : UInt32) : Program Int := do
  match ← flatParse order env.skbPullData pktType with
  | .exit code => return code
  | .send pkt =>
    let pkt := stamp order pkt env.ktimeGetNs
    let sent ← output pkt.bytes env.ringbufOutput
    if sent < 0 then
      return tcActOk
    return 0

/-! ## It only reads -/

variable (order : ByteOrder) (data : List UInt8) (pkt : Record)

theorem ipv4Case_follows :
    Follows data (ipv4Case order data.length pkt) (Flow.ipv4Case order data pkt) := by
  unfold ipv4Case Flow.ipv4Case
  refine .ite (.pure none) ?_
  refine (Follows.load8 _).bind fun protocol => ?_
  refine .ite (.pure none) ?_
  refine (Follows.load _ 4).bind fun saddr => ?_
  refine (Follows.load _ 4).bind fun daddr => ?_
  exact (Follows.load8 _).bind fun ttl => .pure _

theorem ipv6Case_follows :
    Follows data (ipv6Case data.length pkt) (Flow.ipv6Case data pkt) := by
  unfold ipv6Case Flow.ipv6Case
  refine .ite (.pure none) ?_
  refine (Follows.load8 _).bind fun nexthdr => ?_
  refine .ite (.pure none) ?_
  refine (Follows.load _ 16).bind fun saddr => ?_
  refine (Follows.load _ 16).bind fun daddr => ?_
  exact (Follows.load8 _).bind fun hopLimit => .pure _

theorem networkSwitch_follows :
    Follows data (networkSwitch order data.length pkt) (Flow.networkSwitch order data pkt) := by
  unfold networkSwitch Flow.networkSwitch
  refine (Follows.load _ 2).bind fun hProto => ?_
  exact .ite (ipv4Case_follows order data pkt) (.ite (ipv6Case_follows data pkt) (.pure none))

theorem storePorts_follows (source dest : Nat) :
    Follows data (storePorts order pkt ⟨.packet, source⟩ ⟨.packet, dest⟩)
      (Flow.storePorts order data pkt source dest) := by
  unfold storePorts Flow.storePorts
  refine (Follows.load source 2).bind fun src => ?_
  exact (Follows.load dest 2).bind fun dst => .pure _

theorem transportSwitch_follows (offset : Nat) :
    Follows data (transportSwitch order pkt offset)
      (Flow.transportSwitch order data pkt offset) := by
  unfold transportSwitch Flow.transportSwitch
  simp only [packetStart_add, Ptr.add_mk]
  refine .ite ?_ (.ite ?_ (.pure _))
  · refine (Follows.load8 _).bind fun flags => ?_
    refine .ite ?_ (.pure _)
    exact (storePorts_follows order data pkt _ _).bind fun pkt => .pure _
  · exact (storePorts_follows order data pkt _ _).bind fun pkt => .pure _

theorem flatParse_follows (pulled : Int) (pktType : UInt32) :
    Follows data (flatParse order pulled pktType)
      (Flow.flatParse order pulled ⟨pktType, data⟩) := by
  unfold flatParse Flow.flatParse
  refine .ite (.pure _) (.ite (.pure _) ?_)
  refine .dataEnd (.ite (.pure _) ?_)
  refine (networkSwitch_follows order data _).bind fun found => ?_
  cases found with
  | none => exact .pure _
  | some found =>
      obtain ⟨pkt, offset⟩ := found
      exact .ite (.pure _) (transportSwitch_follows order data pkt offset)

/-- The program does what `flat` says, and beside that it only reads. -/
theorem flat_run (env : Helpers) (pktType : UInt32) {code : Int} {records : List Record}
    (h : Flow.flat order env ⟨pktType, data⟩ = .ok (code, records)) :
    ∃ w, OnlyReads (.start data) w ∧
      flat order env pktType (.start data) =
        (code, { w with
          journal := w.journal ++ (records.map Region.bytes).map .output }) := by
  rw [Flow.flat] at h
  obtain ⟨verdict, parsed, h⟩ := Checked.bind_eq_ok.mp h
  obtain ⟨w, run, reads⟩ :=
    flatParse_follows order data env.skbPullData pktType verdict parsed (.start data) rfl
  refine ⟨w, reads, ?_⟩
  rw [flat, bind_apply, run]
  cases verdict with
  | exit code' =>
      obtain ⟨rfl, rfl⟩ := Prod.mk.inj (Except.ok.inj h)
      simp only [List.map_nil, List.append_nil]
      rfl
  | send pkt =>
      dsimp only at h ⊢
      rw [bind_apply, output]
      by_cases full : env.ringbufOutput < 0
      · rw [if_pos full] at h ⊢
        obtain ⟨rfl, rfl⟩ := Prod.mk.inj (Except.ok.inj h)
        simp only [if_pos full, List.map_nil, List.append_nil]
        rfl
      · rw [if_neg full] at h ⊢
        obtain ⟨rfl, rfl⟩ := Prod.mk.inj (Except.ok.inj h)
        simp only [if_neg full]
        rfl

/-- Whatever it runs on, `flat` does not interfere with it. -/
theorem flat_transparent (env : Helpers) (pktType : UInt32) :
    Transparent tcActOk data (flat order env pktType) := by
  obtain ⟨w, reads, run⟩ := flat_run order data env pktType (flat_eq order env ⟨pktType, data⟩)
  refine .of_output reads run ?_
  split <;> simp

/-- `TestPacket`. -/
example : (flat .little ⟨0, 7, 0⟩ 0 (.start [1, 2, 3, 4, 5, 6, 7, 8, 9, 0, 1, 2, 3, 4, 5])).1 = 0 ∧
    (flat .little ⟨0, 7, 0⟩ 0 (.start [1, 2, 3, 4, 5, 6, 7, 8, 9, 0, 1, 2, 3, 4, 5])).2.packet =
      [1, 2, 3, 4, 5, 6, 7, 8, 9, 0, 1, 2, 3, 4, 5] := by decide +kernel

end Xcnf.Flow.Exec
