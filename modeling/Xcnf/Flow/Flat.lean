import Xcnf.Lib.Buffer
import Xcnf.Kernel.Headers
import Xcnf.Flow.Record

/-!
# The classifier `flat`

`flat` looks at one frame, and hands at most one record to the ring buffer `pipe`. The
frame is the bytes between `skb->data` and `skb->data_end`; `head` is offset 0 and
`tail` the length, so `head + n > tail` reads `n > data.length`. Every packet byte is
read through a checked load, and a run that would read past `data_end` is a fault.

The program is cut where it reads the clock: `flatParse` is everything before
`bpf_ktime_get_ns`, and what is left is to stamp the record and to append it.
-/

namespace Xcnf.Flow

/-! ## Constants of the program's environment -/

def tcActOk : Int := 0
def packetBroadcast : UInt32 := 1
def packetMulticast : UInt32 := 2

/-! ## The program -/

/-- The fields of `struct __sk_buff` that `flat` reads, `data` being the bytes up to
`data_end` once the frame has been pulled. -/
structure SkBuff where
  pktType : UInt32
  data : List UInt8
  deriving DecidableEq

/-- What the helpers return during one invocation. -/
structure Helpers where
  skbPullData : Int
  ktimeGetNs : UInt64
  ringbufOutput : Int
  deriving DecidableEq

/-- How `flat` leaves the part before the clock is read. -/
inductive Verdict where
  | exit (code : Int)
  | send (pkt : Record)
  deriving DecidableEq

/-- `case ETH_P_IP`. The result is the record so far and the offset of the transport
header; `none` is `return TC_ACT_OK`. -/
def ipv4Case (order : ByteOrder) (data : List UInt8) (pkt : Record) :
    Access (Option (Record × Nat)) := do
  let offset := sizeofEthhdr + sizeofIphdr
  if offset > data.length then
    return none
  let ip := sizeofEthhdr
  let protocol ← Buffer.load8 data (ip + Iphdr.protocol)
  if protocol ≠ ipprotoTcp ∧ protocol ≠ ipprotoUdp then
    return none
  let saddr ← Buffer.load data (ip + Iphdr.saddr) 4
  let pkt := pkt.store (PacketT.offSrcIp + 4 * 3) (.ofWord32 order (saddr.toWord32 order))
    PacketT.fits.srcIpWord3
  let daddr ← Buffer.load data (ip + Iphdr.daddr) 4
  let pkt := pkt.store (PacketT.offDstIp + 4 * 3) (.ofWord32 order (daddr.toWord32 order))
    PacketT.fits.dstIpWord3
  -- `u6_addr32` has four words; index 5 lies eight bytes behind the address
  let pkt := pkt.store (PacketT.offSrcIp + 4 * 5) (.ofWord32 order 0xffff) PacketT.fits.srcIpWord5
  let pkt := pkt.store (PacketT.offDstIp + 4 * 5) (.ofWord32 order 0xffff) PacketT.fits.dstIpWord5
  let pkt := pkt.store PacketT.offProtocol (.ofByte protocol) PacketT.fits.protocol
  let ttl ← Buffer.load8 data (ip + Iphdr.ttl)
  let pkt := pkt.store PacketT.offTtl (.ofByte ttl) PacketT.fits.ttl
  return some (pkt, offset)

/-- `case ETH_P_IPV6`, with the disjunction of the source. -/
def ipv6Case (data : List UInt8) (pkt : Record) : Access (Option (Record × Nat)) := do
  let offset := sizeofEthhdr + sizeofIpv6hdr
  if offset > data.length then
    return none
  let ipv6 := sizeofEthhdr
  let nexthdr ← Buffer.load8 data (ipv6 + Ipv6hdr.nexthdr)
  if nexthdr ≠ ipprotoTcp ∨ nexthdr ≠ ipprotoUdp then
    return none
  let saddr ← Buffer.load data (ipv6 + Ipv6hdr.saddr) 16
  let pkt := pkt.store PacketT.offSrcIp saddr PacketT.fits.srcIp
  let daddr ← Buffer.load data (ipv6 + Ipv6hdr.daddr) 16
  let pkt := pkt.store PacketT.offDstIp daddr PacketT.fits.dstIp
  let pkt := pkt.store PacketT.offProtocol (.ofByte nexthdr) PacketT.fits.protocol
  let hopLimit ← Buffer.load8 data (ipv6 + Ipv6hdr.hopLimit)
  let pkt := pkt.store PacketT.offTtl (.ofByte hopLimit) PacketT.fits.ttl
  return some (pkt, offset)

/-- `switch (bpf_ntohs(eth->h_proto))`. -/
def networkSwitch (order : ByteOrder) (data : List UInt8) (pkt : Record) :
    Access (Option (Record × Nat)) := do
  let hProto ← Buffer.load data Ethhdr.hProto 2
  let proto := bpfNtohs order (hProto.toWord16 order)
  if proto = ethPIp then
    ipv4Case order data pkt
  else if proto = ethPIpv6 then
    ipv6Case data pkt
  else
    return none

/-- `pkt.src_port = tcp->source; pkt.dst_port = tcp->dest`, and the same for `udp`. -/
def storePorts (order : ByteOrder) (data : List UInt8) (pkt : Record) (source dest : Nat) :
    Access Record := do
  let src ← Buffer.load data source 2
  let pkt := pkt.store PacketT.offSrcPort (.ofWord16 order (src.toWord16 order))
    PacketT.fits.srcPort
  let dst ← Buffer.load data dest 2
  return pkt.store PacketT.offDstPort (.ofWord16 order (dst.toWord16 order)) PacketT.fits.dstPort

/-- `switch (pkt.protocol)`, up to the clock. -/
def transportSwitch (order : ByteOrder) (data : List UInt8) (pkt : Record) (offset : Nat) :
    Access Verdict := do
  if pkt.get PacketT.offProtocol = ipprotoTcp then
    let tcp := offset
    let flags ← Buffer.load8 data (tcp + Tcphdr.flags)
    if Tcphdr.syn flags then
      let pkt ← storePorts order data pkt (tcp + Tcphdr.source) (tcp + Tcphdr.dest)
      let pkt := pkt.store PacketT.offSyn (.ofByte (boolByte (Tcphdr.syn flags))) PacketT.fits.syn
      let pkt := pkt.store PacketT.offAck (.ofByte (boolByte (Tcphdr.ack flags))) PacketT.fits.ack
      return .send pkt
    else
      return .exit 0
  else if pkt.get PacketT.offProtocol = ipprotoUdp then
    let udp := offset
    let pkt ← storePorts order data pkt (udp + Udphdr.source) (udp + Udphdr.dest)
    return .send pkt
  else
    return .exit tcActOk

/-- `flat` up to `bpf_ktime_get_ns`; `pulled` is the result of `bpf_skb_pull_data`. -/
def flatParse (order : ByteOrder) (pulled : Int) (skb : SkBuff) : Access Verdict := do
  if pulled < 0 then
    return .exit tcActOk
  if skb.pktType = packetBroadcast ∨ skb.pktType = packetMulticast then
    return .exit tcActOk
  if sizeofEthhdr > skb.data.length then
    return .exit tcActOk
  match ← networkSwitch order skb.data (Region.zero sizeofPacketT) with
  | none => return .exit tcActOk
  | some (pkt, offset) =>
    -- one check for both transports, so a UDP header needs room for a TCP header
    if offset + sizeofTcphdr > skb.data.length ∨ offset + sizeofUdphdr > skb.data.length then
      return .exit tcActOk
    transportSwitch order skb.data pkt offset

/-- One invocation: the returned code and the records appended to `pipe`. -/
def flat (order : ByteOrder) (env : Helpers) (skb : SkBuff) : Access (Int × List Record) := do
  match ← flatParse order env.skbPullData skb with
  | .exit code => return (code, [])
  | .send pkt =>
    let pkt := stamp order pkt env.ktimeGetNs
    if env.ringbufOutput < 0 then
      return (tcActOk, [])
    return (0, [pkt])

end Xcnf.Flow
