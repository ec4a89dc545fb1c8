import Xcnf.Lib.Region

/-!
# The event record `struct packet_t`

The record is 48 bytes with natural alignment and no padding: two 16-byte addresses, two
ports kept in network order, four single bytes and one native 64-bit word. `layout`
puts a value of the structure into memory the way a C compiler for the given byte order
does; the program itself fills the record by separate stores.
-/

namespace Xcnf.Flow

/-! Byte offsets of the fields, as the target's ABI assigns them. -/

namespace PacketT

@[simp] def offSrcIp : Nat := 0
@[simp] def offDstIp : Nat := 16
@[simp] def offSrcPort : Nat := 32
@[simp] def offDstPort : Nat := 34
@[simp] def offProtocol : Nat := 36
@[simp] def offTtl : Nat := 37
@[simp] def offSyn : Nat := 38
@[simp] def offAck : Nat := 39
@[simp] def offTs : Nat := 40

end PacketT

/-- `sizeof(struct packet_t)`. -/
abbrev sizeofPacketT : Nat := 48

/-- The record in memory. -/
abbrev Record := Region sizeofPacketT

/-- The accesses to the record stay inside it: those to whole fields, and those to the
words of an address that the IPv4 case writes. -/
structure PacketT.InBounds : Prop where
  srcIp : offSrcIp + 16 ≤ sizeofPacketT
  dstIp : offDstIp + 16 ≤ sizeofPacketT
  srcIpWord3 : offSrcIp + 4 * 3 + 4 ≤ sizeofPacketT
  dstIpWord3 : offDstIp + 4 * 3 + 4 ≤ sizeofPacketT
  srcIpWord5 : offSrcIp + 4 * 5 + 4 ≤ sizeofPacketT
  dstIpWord5 : offDstIp + 4 * 5 + 4 ≤ sizeofPacketT
  srcPort : offSrcPort + 2 ≤ sizeofPacketT
  dstPort : offDstPort + 2 ≤ sizeofPacketT
  protocol : offProtocol + 1 ≤ sizeofPacketT
  ttl : offTtl + 1 ≤ sizeofPacketT
  syn : offSyn + 1 ≤ sizeofPacketT
  ack : offAck + 1 ≤ sizeofPacketT
  ts : offTs + 8 ≤ sizeofPacketT

theorem PacketT.fits : InBounds := by constructor <;> decide

/-- A value of `struct packet_t`. Addresses and ports are the bytes they occupy in
memory, which for the `__be16` ports are the network-order bytes. -/
@[ext] structure PacketT where
  srcIp : Region 16
  dstIp : Region 16
  srcPort : Region 2
  dstPort : Region 2
  protocol : UInt8
  ttl : UInt8
  syn : Bool
  ack : Bool
  ts : UInt64
  deriving DecidableEq

/-- A C `bool` in memory. -/
def boolByte (b : Bool) : UInt8 := if b then 1 else 0

theorem boolByte_eq_one (b : Bool) : (boolByte b == 1) = b := by cases b <;> rfl

/-- The bytes of the structure on a target of the given byte order. -/
def PacketT.layout (v : PacketT) (order : ByteOrder) : Record :=
  Region.zero sizeofPacketT
    |>.store offSrcIp v.srcIp fits.srcIp
    |>.store offDstIp v.dstIp fits.dstIp
    |>.store offSrcPort v.srcPort fits.srcPort
    |>.store offDstPort v.dstPort fits.dstPort
    |>.store offProtocol (.ofByte v.protocol) fits.protocol
    |>.store offTtl (.ofByte v.ttl) fits.ttl
    |>.store offSyn (.ofByte (boolByte v.syn)) fits.syn
    |>.store offAck (.ofByte (boolByte v.ack)) fits.ack
    |>.store offTs (.ofWord64 order v.ts) fits.ts

/-- `pkt.ts = bpf_ktime_get_ns()`. -/
def stamp (order : ByteOrder) (pkt : Record) (now : UInt64) : Record :=
  pkt.store PacketT.offTs (.ofWord64 order now) PacketT.fits.ts

end Xcnf.Flow
