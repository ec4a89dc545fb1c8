import Xcnf.Lib.Region

/-!
# Protocol headers and byte-order helpers of the kernel

The sizes of the headers, the offsets of the fields that the programs read, and the
conversion between network and host order. The offsets are those of the kernel's
structures and do not depend on the target's byte order.
-/

namespace Xcnf

def ethPIp : UInt16 := 0x0800
def ethPIpv6 : UInt16 := 0x86DD
def ipprotoTcp : UInt8 := 6
def ipprotoUdp : UInt8 := 17

@[simp] def sizeofEthhdr : Nat := 14
@[simp] def sizeofIphdr : Nat := 20
@[simp] def sizeofIpv6hdr : Nat := 40
@[simp] def sizeofTcphdr : Nat := 20
@[simp] def sizeofUdphdr : Nat := 8

@[simp] def Ethhdr.hProto : Nat := 12
@[simp] def Iphdr.ttl : Nat := 8
@[simp] def Iphdr.protocol : Nat := 9
@[simp] def Iphdr.saddr : Nat := 12
@[simp] def Iphdr.daddr : Nat := 16
@[simp] def Ipv6hdr.payloadLen : Nat := 4
@[simp] def Ipv6hdr.nexthdr : Nat := 6
@[simp] def Ipv6hdr.hopLimit : Nat := 7
@[simp] def Ipv6hdr.saddr : Nat := 8
@[simp] def Ipv6hdr.daddr : Nat := 24
@[simp] def Tcphdr.source : Nat := 0
@[simp] def Tcphdr.dest : Nat := 2
/-- The byte of `struct tcphdr` that holds the flag bit-fields, on either byte order. -/
@[simp] def Tcphdr.flags : Nat := 13
@[simp] def Udphdr.source : Nat := 0
@[simp] def Udphdr.dest : Nat := 2

/-- `tcp->syn`, from the flags byte. -/
def Tcphdr.syn (flags : UInt8) : Bool := flags &&& 0x02 != 0

/-- `tcp->ack`, from the flags byte. -/
def Tcphdr.ack (flags : UInt8) : Bool := flags &&& 0x10 != 0

/-- `bpf_ntohs`: a swap on little-endian targets only. -/
def bpfNtohs (order : ByteOrder) (v : UInt16) : UInt16 :=
  match order with
  | .little => ByteOrder.bswap16 v
  | .big => v

/-- `bpf_htons`, the same swap. -/
def bpfHtons (order : ByteOrder) (v : UInt16) : UInt16 := bpfNtohs order v

/-- Converting a loaded word gives the big-endian reading of its bytes. -/
theorem bpfNtohs_toWord16 (order : ByteOrder) (r : Region 2) :
    bpfNtohs order (r.toWord16 order) = r.toWord16 .big := by
  cases order with
  | little => exact r.bswap16_toWord16
  | big => rfl

end Xcnf
