import Xcnf.Lib.XorMul
import Xcnf.Flow.Isolation

/-!
# What the hash of a flow tells apart

`Packet.hash` adds up the FNV-1a hashes of the two endpoints and of the protocol, so it
forgets the direction. It does not forget a port, a protocol or a single byte of an
address: two packets that share everything else have different hashes.
-/

namespace Xcnf.Flow

/-- The prime of FNV-1a on 64 bits. -/
def fnvPrime : XorMul.Multiplier where
  value := 1099511628211
  inverse := 14886173955864302971
  unit := by decide
  low := by decide
  high := by decide

/-- The state in which FNV-1a starts. -/
def fnvOffset : UInt64 := 14695981039346656037

theorem hash_eq_absorb (value : List UInt8) :
    hash value = XorMul.absorb fnvPrime fnvOffset value := rfl

/-! ## Endpoints -/

/-- Behind the same bytes two different numbers of 16 bits are told apart. -/
theorem hash_bytes16_injective (front : List UInt8) {v w : UInt16}
    (h : hash (front ++ ByteOrder.big.bytes16 v) = hash (front ++ ByteOrder.big.bytes16 w)) :
    v = w := by
  obtain ⟨b, b', hv⟩ := List.length_eq_two.mp (ByteOrder.big.bytes16_length v)
  obtain ⟨c, c', hw⟩ := List.length_eq_two.mp (ByteOrder.big.bytes16_length w)
  rw [hash_eq_absorb, hash_eq_absorb, XorMul.absorb_append, XorMul.absorb_append, hv, hw] at h
  obtain ⟨rfl, rfl⟩ := XorMul.absorb_two_bytes fnvPrime h
  rw [← ByteOrder.big.word16_bytes16 v, hv, ← hw, ByteOrder.big.word16_bytes16]

theorem endpointHash_port_injective {a : Addr} {port port' : UInt16}
    (h : endpointHash (a, port) = endpointHash (a, port')) : port = port' :=
  hash_bytes16_injective a.asSlice h

/-- Byte strings of one length that differ in exactly one place. -/
def DifferInOneByte (xs ys : List UInt8) : Prop :=
  ∃ front back x y, x ≠ y ∧ xs = front ++ x :: back ∧ ys = front ++ y :: back

theorem endpointHash_address_ne {a b : Addr} (port : UInt16)
    (h : DifferInOneByte a.asSlice b.asSlice) :
    endpointHash (a, port) ≠ endpointHash (b, port) := by
  obtain ⟨front, back, x, y, hne, ha, hb⟩ := h
  intro e
  simp only [endpointHash, ha, hb, hash_eq_absorb, List.append_assoc, List.cons_append] at e
  exact hne (XorMul.absorb_one_byte fnvPrime e)

/-! ## Flows -/

variable {p q : Packet}

/-- Two packets with an endpoint in common have the same hash only if the hashes of their
other endpoints agree. -/
theorem endpointHash_eq_of_hash_eq {e a b : Addr × UInt16} (hp : p.flow.ends = s(e, a))
    (hq : q.flow.ends = s(e, b)) (protocol : p.protocol = q.protocol) (h : p.hash = q.hash) :
    endpointHash a = endpointHash b := by
  rw [Packet.hash_eq, Packet.hash_eq, FiveTuple.hash, FiveTuple.hash, hp, hq] at h
  simp only [Packet.flow, protocol, Sym2.lift_mk] at h
  exact UInt64.add_right_inj _ |>.mp ((UInt64.add_left_inj _).mp h)

/-- Two packets between the same endpoints have the same hash only if their protocols
agree. -/
theorem protocol_eq_of_hash_eq (ends : p.flow.ends = q.flow.ends) (h : p.hash = q.hash) :
    p.protocol = q.protocol := by
  rw [Packet.hash_eq, Packet.hash_eq, FiveTuple.hash, FiveTuple.hash, ends] at h
  have widened : p.protocol.toUInt16 = q.protocol.toUInt16 :=
    hash_bytes16_injective [] ((UInt64.add_right_inj _).mp h)
  have same := congrArg UInt16.toNat widened
  rw [UInt8.toNat_toUInt16, UInt8.toNat_toUInt16] at same
  exact UInt8.toNat_inj.mp same

/-- What the hashes of two packets say about their flows. -/
structure HashIdentifies (p q : Packet) : Prop where
  /-- A packet and a reply to it share a key, whatever else they carry. -/
  direction : q.srcIP = p.dstIP → q.srcPort = p.dstPort → q.dstIP = p.srcIP →
    q.dstPort = p.srcPort → q.protocol = p.protocol → q.hash = p.hash
  /-- Connections that differ in one port do not. -/
  port : ∀ e a port port', p.flow.ends = s(e, (a, port)) → q.flow.ends = s(e, (a, port')) →
    p.protocol = q.protocol → port ≠ port' → p.hash ≠ q.hash
  /-- Nor do connections that differ in one byte of an address. -/
  address : ∀ e a b port, p.flow.ends = s(e, (a, port)) → q.flow.ends = s(e, (b, port)) →
    p.protocol = q.protocol → DifferInOneByte a.asSlice b.asSlice → p.hash ≠ q.hash
  /-- Nor connections that differ in the protocol. -/
  protocol : p.flow.ends = q.flow.ends → p.protocol ≠ q.protocol → p.hash ≠ q.hash

theorem hashIdentifies (p q : Packet) : HashIdentifies p q where
  direction := by
    intro srcIP srcPort dstIP dstPort protocol
    have ends : q.flow.ends = p.flow.ends := by
      simp only [Packet.flow, srcIP, srcPort, dstIP, dstPort]
      exact Sym2.eq_swap
    rw [Packet.hash_eq, Packet.hash_eq, FiveTuple.ext ends protocol]
  port := fun _ _ _ _ hp hq protocol hne h =>
    hne (endpointHash_port_injective (endpointHash_eq_of_hash_eq hp hq protocol h))
  address := fun _ _ _ port hp hq protocol hne h =>
    endpointHash_address_ne port hne (endpointHash_eq_of_hash_eq hp hq protocol h)
  protocol := fun ends hne h => hne (protocol_eq_of_hash_eq ends h)

end Xcnf.Flow
