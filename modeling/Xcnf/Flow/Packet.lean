import Xcnf.Lib.GoBinary
import Xcnf.Flow.FlowTable
import Xcnf.Flow.Record

/-!
# Decoding events and measuring latencies

`unmarshalBinary` decodes one sample from the ring buffer, `Packet.hash` is the key a
packet's flow has in the table, and `calcLatency` opens, closes or ignores a flow. The
standard library's address functions are written after their documented behaviour.
-/

namespace Xcnf.Flow

/-! ## `net/netip` -/

/-- `netip.Addr`. An IPv6 address may wrap an IPv4 address and still be an IPv6 one. -/
inductive Addr where
  | zero
  | v4 (ip : Region 4)
  | v6 (ip : Region 16) (zone : String)
  deriving DecidableEq

namespace Addr

/-- `netip.AddrFromSlice`: the length of the slice decides. -/
def fromSlice (s : GoSlice UInt8) : Option Addr :=
  if h4 : s.elems.length = 4 then
    some (.v4 ⟨s.elems, h4⟩)
  else if h16 : s.elems.length = 16 then
    some (.v6 ⟨s.elems, h16⟩ "")
  else
    none

/-- `Addr.AsSlice`; the zone is not part of it. -/
def asSlice : Addr → List UInt8
  | .zero => []
  | .v4 ip => ip.bytes
  | .v6 ip _ => ip.bytes

/-- The prefix `::ffff:0:0/96` of the IPv4-mapped addresses. -/
def mappedPrefix : List UInt8 := [0, 0, 0, 0, 0, 0, 0, 0, 0, 0, 0xff, 0xff]

/-- An IPv4 address fills the last word of the IPv6 address that wraps it. -/
theorem lastWord_fits : 12 + 4 ≤ 16 := by decide

/-- `Addr.Unmap`. -/
def unmap : Addr → Addr
  | .v6 ip zone =>
    if ip.load 0 12 = mappedPrefix then .v4 (ip.sub 12 4 lastWord_fits) else .v6 ip zone
  | a => a

/-- The IPv4-mapped IPv6 address `::ffff:a.b.c.d`. -/
def mapped (ip : Region 4) : Addr :=
  .v6 ⟨mappedPrefix ++ ip.bytes, by rw [List.length_append, ip.size]; rfl⟩ ""

end Addr

/-! ## Packets -/

@[ext] structure Packet where
  srcIP : Addr
  dstIP : Addr
  srcPort : UInt16
  dstPort : UInt16
  protocol : UInt8
  ttl : UInt8
  syn : Bool
  ack : Bool
  timestamp : UInt64
  deriving DecidableEq

/-- `UnmarshalBinary`; `none` is the result with `ok` false. -/
def unmarshalBinary (sample : GoSlice UInt8) : Go (Option Packet) := do
  match Addr.fromSlice (← sample.slice 0 16) with
  | none => return none
  | some srcIP =>
    match Addr.fromSlice (← sample.slice 16 32) with
    | none => return none
    | some dstIP =>
      let srcPort ← Binary.bigEndianUint16 (← sample.slice 32 34)
      let dstPort ← Binary.bigEndianUint16 (← sample.slice 34 36)
      let protocol ← sample.index 36
      let ttl ← sample.index 37
      let syn ← sample.index 38
      let ack ← sample.index 39
      let timestamp ← Binary.littleEndianUint64 (← sample.slice 40 48)
      return some
        { srcIP, dstIP, srcPort, dstPort, protocol, ttl,
          syn := syn == 1, ack := ack == 1, timestamp }

/-- FNV-1a on 64 bits, as `hash/fnv` computes it. -/
def hash (value : List UInt8) : UInt64 :=
  value.foldl (fun h b => (h ^^^ b.toUInt64) * 1099511628211) 14695981039346656037

/-- `Hash`: the sum of the hashes of the two endpoints and of the protocol. -/
def Packet.hash (pkt : Packet) : UInt64 :=
  let src := pkt.srcIP.asSlice ++ ByteOrder.big.bytes16 pkt.srcPort
  let dst := pkt.dstIP.asSlice ++ ByteOrder.big.bytes16 pkt.dstPort
  let proto := ByteOrder.big.bytes16 pkt.protocol.toUInt16
  Flow.hash src + Flow.hash dst + Flow.hash proto

/-! ## Latencies -/

/-- The values of `ipProtoNums`, the texts `TCP` and `UDP`. -/
inductive Proto where
  | tcp
  | udp
  deriving DecidableEq

def ipProtoNums (number : UInt8) : Option Proto :=
  if number = 6 then some .tcp else if number = 17 then some .udp else none

/-- The values printed for one latency. The printed number is
`(closed - opened) / 1e6` milliseconds; it is kept here as the two timestamps. -/
structure Report where
  proto : Proto
  src : Addr
  srcPort : UInt16
  dst : Addr
  dstPort : UInt16
  ttl : UInt8
  opened : UInt64
  closed : UInt64
  deriving DecidableEq

/-- The measured latency in nanoseconds, which the program computes in floating point. -/
def Report.latency (r : Report) : Int := (r.closed.toNat : Int) - r.opened.toNat

/-- The arguments of both `Printf` calls: the reply's ends, exchanged. -/
def report (proto : Proto) (pkt : Packet) (ts : UInt64) : Report where
  proto := proto
  src := pkt.dstIP.unmap
  srcPort := pkt.dstPort
  dst := pkt.srcIP.unmap
  dstPort := pkt.srcPort
  ttl := pkt.ttl
  opened := ts
  closed := pkt.timestamp

/-- The ways out of `CalcLatency`. -/
inductive Outcome where
  /-- `log.Print("Failed fetching protocol numbner: ", ..)`. -/
  | unknownProtocol (number : UInt8)
  | inserted (hash timestamp : UInt64)
  | ignored
  | reported (r : Report)
  | kept
  deriving DecidableEq

/-- `CalcLatency`, with no other goroutine at the table. -/
def calcLatency (pkt : Packet) (table : FlowTable) : Outcome × FlowTable :=
  match ipProtoNums pkt.protocol with
  | none => (.unknownProtocol pkt.protocol, table)
  | some proto =>
    let pktHash := pkt.hash
    match table.get pktHash with
    | none =>
      if pkt.syn then
        (.inserted pktHash pkt.timestamp, table.insert pktHash pkt.timestamp)
      else if proto = .udp then
        (.inserted pktHash pkt.timestamp, table.insert pktHash pkt.timestamp)
      else
        (.ignored, table)
    | some ts =>
      if pkt.ack then
        (.reported (report proto pkt ts), table.remove pktHash)
      else if proto = .udp then
        (.reported (report proto pkt ts), table.remove pktHash)
      else
        (.kept, table)

end Xcnf.Flow
