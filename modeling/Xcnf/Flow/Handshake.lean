import Xcnf.Flow.Consumer
import Xcnf.Flow.Ipv4Event

/-!
# The latency of a handshake

A SYN and the SYN-ACK that answers it, each seen by `flat`, decoded and measured. What
the table should have at the end, and what should have been printed, is
`MeasuresHandshake`. It is never met: the latency, if one is printed at all, names the
addresses of the events, and these are not the IPv4 addresses of the frames.
-/

namespace Xcnf.Flow

/-- One end of a connection. -/
structure Endpoint where
  ip : Region 4
  port : UInt16
  deriving DecidableEq

/-- A frame to this host with a complete TCP header, in an IPv4 packet without options
and not fragmented, from `src` to `dst`. All other bytes are arbitrary. -/
structure TcpFrame (src dst : Endpoint) (skb : SkBuff) : Prop where
  unicast : skb.pktType ≠ packetBroadcast ∧ skb.pktType ≠ packetMulticast
  room : Frame.l4 + sizeofTcphdr ≤ skb.data.length
  etherType : Frame.etherType skb.data = ethPIp
  ihl : Buffer.byteAt skb.data 14 = 0x45
  unfragmented : (Buffer.peek skb.data 20 2).toWord16 .big &&& 0x3fff = 0
  protocol : Frame.protocol skb.data = ipprotoTcp
  saddr : Frame.saddr skb.data = src.ip
  srcPort : (Frame.srcPort skb.data).toWord16 .big = src.port
  daddr : Frame.daddr skb.data = dst.ip
  dstPort : (Frame.dstPort skb.data).toWord16 .big = dst.port

/-- A SYN, with ACK clear. -/
structure SynFrame (src dst : Endpoint) (skb : SkBuff) : Prop extends TcpFrame src dst skb where
  syn : Tcphdr.syn (Frame.tcpFlags skb.data) = true
  ack : Tcphdr.ack (Frame.tcpFlags skb.data) = false

/-- A SYN-ACK. -/
structure SynAckFrame (src dst : Endpoint) (skb : SkBuff) : Prop extends TcpFrame src dst skb where
  syn : Tcphdr.syn (Frame.tcpFlags skb.data) = true
  ack : Tcphdr.ack (Frame.tcpFlags skb.data) = true

theorem TcpFrame.accepts {src dst : Endpoint} {skb : SkBuff} (frame : TcpFrame src dst skb)
    (syn : Tcphdr.syn (Frame.tcpFlags skb.data) = true) : Accepts skb :=
  ⟨frame.unicast.1, frame.unicast.2, frame.room, frame.etherType, .inl ⟨frame.protocol, syn⟩⟩

/-- Exactly one latency is printed, from `t0` to `t1` and naming `a` as the source and
`b` as the destination, and no flow is left in the table. -/
def MeasuresHandshake (a b : Endpoint) (t0 t1 : UInt64) (result : List Outcome × FlowTable) :
    Prop :=
  (∃ r, reports result.1 = [r] ∧ r.latency = t1.toNat - t0.toNat ∧
    r.src = .v4 a.ip ∧ r.srcPort = a.port ∧ r.dst = .v4 b.ip ∧ r.dstPort = b.port) ∧
  result.2 = SyncMap.empty

/-- The source of a printed latency is the destination address of an event, which is
never an IPv4 address. -/
theorem events_not_measured (a b : Endpoint) (data0 data1 : List UInt8) (t0 t1 : UInt64)
    (table : FlowTable) :
    ¬ MeasuresHandshake a b t0 t1
      (calcLatencies [eventPacket data0 t0, eventPacket data1 t1] table) := by
  rintro ⟨⟨r, printed, _, source, _⟩, _⟩
  obtain ⟨pkt, hpkt, proto, ts, rfl⟩ := mem_reports (printed ▸ List.mem_singleton_self r)
  have named (data : List UInt8) (now : UInt64) (h : pkt = eventPacket data now) : False := by
    subst h
    have source' : (eventPacket data now).dstIP.unmap = .v4 a.ip := source
    rw [(eventPacket_unmap data now).2] at source'
    contradiction
  rcases List.mem_cons.mp hpkt with h | h
  · exact named data0 t0 h
  · exact named data1 t1 (List.mem_singleton.mp h)

/-- The consumer's run over the two events is the run over the two packets. -/
theorem receiveAll_events (data0 data1 : List UInt8) (t0 t1 : UInt64) :
    receiveAll [.ofList (ipv4Event .little data0 t0).bytes,
        .ofList (ipv4Event .little data1 t1).bytes] SyncMap.empty =
      .ok (calcLatencies [eventPacket data0 t0, eventPacket data1 t1] SyncMap.empty) :=
  receiveAll_decoded SyncMap.empty
    (.cons (unmarshalBinary_ipv4Event data0 t0) (.cons (unmarshalBinary_ipv4Event data1 t1) .nil))

/-- Both frames are recorded and decoded, and the handshake is not measured, whichever
two times were read. -/
theorem handshake_not_measured {a b : Endpoint} {env0 env1 : Helpers} {skb0 skb1 : SkBuff}
    (ready0 : env0.Succeed) (ready1 : env1.Succeed)
    (frame0 : SynFrame a b skb0) (frame1 : SynAckFrame b a skb1) :
    ∃ ev0 ev1 result,
      flat .little env0 skb0 = .ok (tcActOk, [ev0]) ∧
      flat .little env1 skb1 = .ok (tcActOk, [ev1]) ∧
      receiveAll [.ofList ev0.bytes, .ofList ev1.bytes] SyncMap.empty = .ok result ∧
      ¬ MeasuresHandshake a b env0.ktimeGetNs env1.ktimeGetNs result :=
  ⟨_, _, _, (frame0.accepts frame0.syn).flat_eq ready0 .little,
    (frame1.accepts frame1.syn).flat_eq ready1 .little,
    receiveAll_events skb0.data skb1.data env0.ktimeGetNs env1.ktimeGetNs,
    events_not_measured a b skb0.data skb1.data env0.ktimeGetNs env1.ktimeGetNs SyncMap.empty⟩

/-! ## One handshake -/

def client : Endpoint := ⟨clientIp, 40000⟩

def server : Endpoint := ⟨serverIp, 443⟩

/-- The answer to `synFrame`. -/
def synAckFrame : SkBuff where
  pktType := 0
  data := Frame.ofIpv4 64 ipprotoTcp server.ip client.ip (Frame.tcpSegment 443 40000 0x12)

theorem synFrame_syn : SynFrame client server synFrame := by
  refine ⟨⟨?_, ?_, ?_, ?_, ?_, ?_, ?_, ?_, ?_, ?_⟩, ?_, ?_⟩ <;> decide

theorem synAckFrame_synAck : SynAckFrame server client synAckFrame := by
  refine ⟨⟨?_, ?_, ?_, ?_, ?_, ?_, ?_, ?_, ?_, ?_⟩, ?_, ?_⟩ <;> decide

theorem synFrame_not_measured :
    ∃ ev0 ev1 result,
      flat .little (.succeedAt 1000) synFrame = .ok (tcActOk, [ev0]) ∧
      flat .little (.succeedAt 3000) synAckFrame = .ok (tcActOk, [ev1]) ∧
      receiveAll [.ofList ev0.bytes, .ofList ev1.bytes] SyncMap.empty = .ok result ∧
      ¬ MeasuresHandshake client server 1000 3000 result :=
  handshake_not_measured (Helpers.succeedAt_succeed 1000) (Helpers.succeedAt_succeed 3000)
    synFrame_syn synAckFrame_synAck

-- The two directions have different hashes, so the answer opens a flow of its own.
example :
    calcLatencies [eventPacket synFrame.data 1000, eventPacket synAckFrame.data 3000]
        SyncMap.empty =
      ([.inserted (eventPacket synFrame.data 1000).hash 1000,
          .inserted (eventPacket synAckFrame.data 3000).hash 3000],
        (FlowTable.insert SyncMap.empty (eventPacket synFrame.data 1000).hash 1000).insert
          (eventPacket synAckFrame.data 3000).hash 3000) := by
  decide +kernel

/-- The handshake between `client` and `server` is not measured. -/
theorem synFrame_refutes_handshake :
    ¬ ∀ (a b : Endpoint) (env0 env1 : Helpers) (skb0 skb1 : SkBuff),
      env0.Succeed → env1.Succeed → env0.ktimeGetNs ≤ env1.ktimeGetNs →
      SynFrame a b skb0 → SynAckFrame b a skb1 →
      ∃ ev0 ev1 result,
        flat .little env0 skb0 = .ok (tcActOk, [ev0]) ∧
        flat .little env1 skb1 = .ok (tcActOk, [ev1]) ∧
        receiveAll [.ofList ev0.bytes, .ofList ev1.bytes] SyncMap.empty = .ok result ∧
        MeasuresHandshake a b env0.ktimeGetNs env1.ktimeGetNs result := by
  intro claimed
  obtain ⟨ev0, ev1, result, hflat0, hflat1, hrun, measured⟩ :=
    claimed client server (.succeedAt 1000) (.succeedAt 3000) synFrame synAckFrame
      (Helpers.succeedAt_succeed 1000) (Helpers.succeedAt_succeed 3000) (by decide)
      synFrame_syn synAckFrame_synAck
  obtain ⟨_, rfl⟩ := flat_emits hflat0
  obtain ⟨_, rfl⟩ := flat_emits hflat1
  rw [receiveAll_events, Except.ok.injEq] at hrun
  subst hrun
  exact events_not_measured _ _ _ _ _ _ _ measured

end Xcnf.Flow
