import Xcnf.Lib.Buffer
import Xcnf.Lib.GoBinary
import Xcnf.Kernel.Headers

/-!
# The netkit IPv6 probe

`processIpv6` runs on every packet of a netkit pair and submits one packed record of 37
bytes for an IPv6 packet; `printEvent` decodes the record in user space with offsets
written out as numbers. The direction is a constant of each of the two programs.

The memory of a reserved record is not initialised, so the reservation carries its
contents, and the record submitted must not depend on them.
-/

namespace Xcnf.Netkit

/-! ## The record `struct ipv6_event` -/

namespace Ipv6Event

@[simp] def offSrcAddr : Nat := 0
@[simp] def offDstAddr : Nat := 16
@[simp] def offNextHeader : Nat := 32
@[simp] def offPayloadLen : Nat := 33
@[simp] def offHopLimit : Nat := 35
@[simp] def offDirection : Nat := 36

end Ipv6Event

/-- `sizeof(struct ipv6_event)`, packed. -/
abbrev sizeofIpv6Event : Nat := 37

abbrev Record := Region sizeofIpv6Event

/-! ## The program -/

def netkitPass : Int := 0

/-- `process_ipv6`: the returned code and the records submitted to `ipv6_events`.
`reserved` is the memory that `bpf_ringbuf_reserve` returns, if it returns any. -/
def processIpv6 (order : ByteOrder) (data : List UInt8) (reserved : Option Record)
    (direction : UInt8) : Access (Int × List Record) := do
  if sizeofEthhdr > data.length then
    return (netkitPass, [])
  let hProto ← Buffer.load data Ethhdr.hProto 2
  if hProto.toWord16 order ≠ bpfHtons order ethPIpv6 then
    return (netkitPass, [])
  let ip6 := sizeofEthhdr
  if ip6 + sizeofIpv6hdr > data.length then
    return (netkitPass, [])
  match reserved with
  | none => return (netkitPass, [])
  | some event =>
    let saddr ← Buffer.load data (ip6 + Ipv6hdr.saddr) 16
    let event := event.store Ipv6Event.offSrcAddr saddr
    let daddr ← Buffer.load data (ip6 + Ipv6hdr.daddr) 16
    let event := event.store Ipv6Event.offDstAddr daddr
    let nexthdr ← Buffer.load8 data (ip6 + Ipv6hdr.nexthdr)
    let event := event.store Ipv6Event.offNextHeader (.ofByte nexthdr)
    let payloadLen ← Buffer.load data (ip6 + Ipv6hdr.payloadLen) 2
    let event := event.store Ipv6Event.offPayloadLen
      (.ofWord16 order (bpfNtohs order (payloadLen.toWord16 order)))
    let hopLimit ← Buffer.load8 data (ip6 + Ipv6hdr.hopLimit)
    let event := event.store Ipv6Event.offHopLimit (.ofByte hopLimit)
    let event := event.store Ipv6Event.offDirection (.ofByte direction)
    return (netkitPass, [event])

def netkitPrimary (order : ByteOrder) (data : List UInt8) (reserved : Option Record) :
    Access (Int × List Record) := processIpv6 order data reserved 0

def netkitPeer (order : ByteOrder) (data : List UInt8) (reserved : Option Record) :
    Access (Int × List Record) := processIpv6 order data reserved 1

/-! ## The consumer -/

/-- Go's `copy` into an array. -/
def copyInto {n : Nat} (dst : Region n) (src : GoSlice UInt8) : Region n :=
  ⟨src.elems.take n ++ dst.bytes.drop src.len, by
    rw [List.length_append, List.length_take, List.length_drop, dst.size, src.elems_length]
    omega⟩

/-- The arguments of the `Printf` call; the addresses are printed as `net.IP`s. -/
structure Line where
  dirStr : String
  srcAddr : Region 16
  dstAddr : Region 16
  nextHeader : UInt8
  payloadLen : UInt16
  hopLimit : UInt8
  deriving DecidableEq

/-- `printEvent`; `none` is the early return. -/
def printEvent (data : GoSlice UInt8) : Go (Option Line) := do
  if data.len < 37 then
    return none
  let srcAddr := copyInto (Region.zero 16) (← data.slice 0 16)
  let dstAddr := copyInto (Region.zero 16) (← data.slice 16 32)
  let nextHeader ← data.index 32
  let payloadLen ← Binary.littleEndianUint16 (← data.slice 33 35)
  let hopLimit ← data.index 35
  let direction ← data.index 36
  let dirStr := if direction = 1 then "peer" else "primary"
  return some { dirStr, srcAddr, dstAddr, nextHeader, payloadLen, hopLimit }

/-! ## What is submitted -/

/-- Bytes 12 and 13 hold the EtherType of IPv6, and both headers are complete. -/
def IsIpv6 (data : List UInt8) : Prop :=
  54 ≤ data.length ∧ (data.drop 12).take 2 = [0x86, 0xDD]

instance (data : List UInt8) : Decidable (IsIpv6 data) := inferInstanceAs (Decidable (_ ∧ _))

/-- The record of a packet, in the memory reserved for it. -/
def ipv6Event (order : ByteOrder) (data : List UInt8) (direction : UInt8) (event : Record) :
    Record :=
  event
    |>.store Ipv6Event.offSrcAddr (Buffer.peek data 22 16)
    |>.store Ipv6Event.offDstAddr (Buffer.peek data 38 16)
    |>.store Ipv6Event.offNextHeader (.ofByte (Buffer.byteAt data 20))
    |>.store Ipv6Event.offPayloadLen (.ofWord16 order ((Buffer.peek data 18 2).toWord16 .big))
    |>.store Ipv6Event.offHopLimit (.ofByte (Buffer.byteAt data 21))
    |>.store Ipv6Event.offDirection (.ofByte direction)

/-- The stores of `process_ipv6` to its slot, in program order. -/
def copyStores (order : ByteOrder) (data : List UInt8) (direction : UInt8) :
    List (Record → Record) := [
  fun event => event.store Ipv6Event.offSrcAddr (Buffer.peek data 22 16),
  fun event => event.store Ipv6Event.offDstAddr (Buffer.peek data 38 16),
  fun event => event.store Ipv6Event.offNextHeader (.ofByte (Buffer.byteAt data 20)),
  fun event => event.store Ipv6Event.offPayloadLen
    (.ofWord16 order ((Buffer.peek data 18 2).toWord16 .big)),
  fun event => event.store Ipv6Event.offHopLimit (.ofByte (Buffer.byteAt data 21)),
  fun event => event.store Ipv6Event.offDirection (.ofByte direction)]

variable {order : ByteOrder} {data : List UInt8}

theorem hProto_eq_iff (hlen : 14 ≤ data.length) :
    (Buffer.peek data 12 2).toWord16 order = bpfHtons order ethPIpv6 ↔
      (data.drop 12).take 2 = [0x86, 0xDD] := by
  have bytes : (Buffer.peek data 12 2).bytes = (data.drop 12).take 2 := Buffer.peek_bytes hlen
  rw [← bytes]
  have ethertype : bpfHtons order ethPIpv6 = order.word16 [0x86, 0xDD] := by
    cases order <;> decide
  rw [ethertype]
  exact ⟨fun h => order.word16_injective (Region.size _) rfl h, fun h => congrArg order.word16 h⟩

/-- The program never faults, passes every packet on, and submits the record of an IPv6
packet whose reservation succeeds. -/
theorem processIpv6_eq (order : ByteOrder) (data : List UInt8) (reserved : Option Record)
    (direction : UInt8) :
    processIpv6 order data reserved direction =
      .ok (netkitPass, if IsIpv6 data then
        (reserved.map (ipv6Event order data direction)).toList else []) := by
  by_cases heth : data.length < 14
  · have no : ¬ IsIpv6 data := fun h => by have := h.1; omega
    rw [if_neg no, processIpv6]
    exact if_pos heth
  have hproto : Buffer.load data 12 2 = .ok (Buffer.peek data 12 2) := Buffer.load_ok (by omega)
  have heth_le : 14 ≤ data.length := by omega
  by_cases htype : (data.drop 12).take 2 = [0x86, 0xDD]
  · have hguard : ¬ (Buffer.peek data 12 2).toWord16 order ≠ bpfHtons order ethPIpv6 :=
      not_not.mpr ((hProto_eq_iff heth_le).mpr htype)
    by_cases hlen : data.length < 54
    · have no : ¬ IsIpv6 data := fun h => by have := h.1; omega
      have hshort : sizeofEthhdr + sizeofIpv6hdr > data.length := hlen
      rw [if_neg no]
      simp only [processIpv6, Ethhdr.hProto, hproto, Checked.ok_bind, if_neg hguard,
        if_pos hshort]
      exact if_neg heth
    · have yes : IsIpv6 data := ⟨by omega, htype⟩
      have hlong : ¬ 54 > data.length := hlen
      have hsaddr : Buffer.load data 22 16 = .ok (Buffer.peek data 22 16) :=
        Buffer.load_ok (by omega)
      have hdaddr : Buffer.load data 38 16 = .ok (Buffer.peek data 38 16) :=
        Buffer.load_ok (by omega)
      have hnext : Buffer.load8 data 20 = .ok (Buffer.byteAt data 20) := Buffer.load8_ok (by omega)
      have hpayload : Buffer.load data 18 2 = .ok (Buffer.peek data 18 2) :=
        Buffer.load_ok (by omega)
      have hhops : Buffer.load8 data 21 = .ok (Buffer.byteAt data 21) := Buffer.load8_ok (by omega)
      rw [if_pos yes]
      cases reserved with
      | none =>
          simp only [processIpv6, Ethhdr.hProto, hproto, Checked.ok_bind, ite_self]
          rfl
      | some event =>
          simp only [processIpv6, Ethhdr.hProto, hproto, Checked.ok_bind, if_neg hguard,
            sizeofEthhdr, sizeofIpv6hdr, Ipv6hdr.saddr, Ipv6hdr.daddr, Ipv6hdr.nexthdr,
            Ipv6hdr.payloadLen, Ipv6hdr.hopLimit, Nat.reduceAdd, if_neg hlong, hsaddr, hdaddr,
            hnext, hpayload, hhops, bpfNtohs_toWord16]
          exact if_neg heth
  · have no : ¬ IsIpv6 data := fun h => htype h.2
    have hguard : (Buffer.peek data 12 2).toWord16 order ≠ bpfHtons order ethPIpv6 :=
      fun h => htype ((hProto_eq_iff heth_le).mp h)
    rw [if_neg no]
    simp only [processIpv6, Ethhdr.hProto, hproto, Checked.ok_bind, if_pos hguard]
    exact if_neg heth

/-! ## What is printed -/

/-- Copying as many bytes as the array holds replaces them all. -/
theorem copyInto_eq {n : Nat} (dst : Region n) {src : GoSlice UInt8} {r : Region n}
    (h : src.elems = r.bytes) : copyInto dst src = r := by
  have hlen : src.len = n := by rw [← src.elems_length, h, r.size]
  apply Region.ext
  change src.elems.take n ++ dst.bytes.drop src.len = r.bytes
  rw [h, hlen, List.take_of_length_le (by rw [r.size]),
    List.drop_eq_nil_of_le (by rw [dst.size]), List.append_nil]

/-- The fields of a record, each read at its offset. -/
def Line.ofRecord (r : Record) : Line where
  dirStr := if r.get 36 = 1 then "peer" else "primary"
  srcAddr := r.sub 0 16
  dstAddr := r.sub 16 16
  nextHeader := r.get 32
  payloadLen := (r.sub 33 2).toWord16 .little
  hopLimit := r.get 35

theorem printEvent_short {data : GoSlice UInt8} (h : data.len < 37) : printEvent data = .ok none :=
  if_pos h

/-- A slice that starts with a record is decoded. -/
theorem printEvent_record {data : GoSlice UInt8} {r : Record} (h : data.StartsWith r) :
    printEvent data = .ok (some (Line.ofRecord r)) := by
  obtain ⟨srcAddr, hsrcAddr, esrcAddr⟩ := h.slice 0 16 (by decide)
  obtain ⟨dstAddr, hdstAddr, edstAddr⟩ := h.slice 16 16 (by decide)
  obtain ⟨payloadLen, hpayloadLen, epayloadLen⟩ := h.slice 33 2 (by decide)
  have hbyte (i : Nat) (hi : i < 37) : data.index i = .ok (r.get i hi) := h.index hi
  have hlong : ¬ data.len < 37 := Nat.not_lt.mpr h.le_len
  simp only [Nat.reduceAdd] at hsrcAddr hdstAddr hpayloadLen
  simp only [printEvent, hsrcAddr, hdstAddr, hpayloadLen, hbyte 32 (by decide),
    hbyte 35 (by decide), hbyte 36 (by decide), Checked.ok_bind, copyInto_eq _ esrcAddr,
    copyInto_eq _ edstAddr, Binary.littleEndianUint16_eq epayloadLen]
  exact if_neg hlong

/-- No slice is too short or too long for `printEvent`. -/
theorem printEvent_total (data : GoSlice UInt8) :
    ∃ line, printEvent data = .ok line ∧ (line = none ↔ data.len < 37) := by
  by_cases h : data.len < 37
  · exact ⟨none, printEvent_short h, fun _ => h, fun _ => rfl⟩
  · obtain ⟨r, hr⟩ := GoSlice.exists_startsWith (Nat.not_lt.mp h)
    exact ⟨_, printEvent_record hr, fun e => by contradiction, fun e => absurd e h⟩

/-! ## Round trip -/

/-- The two programs of the pair. -/
inductive Direction where
  | primary
  | peer
  deriving DecidableEq

namespace Direction

def program : Direction → ByteOrder → List UInt8 → Option Record → Access (Int × List Record)
  | primary => netkitPrimary
  | peer => netkitPeer

/-- The constant that the program stores. -/
def code : Direction → UInt8
  | primary => 0
  | peer => 1

def name : Direction → String
  | primary => "primary"
  | peer => "peer"

theorem program_eq (d : Direction) (order : ByteOrder) (data : List UInt8)
    (reserved : Option Record) :
    d.program order data reserved = processIpv6 order data reserved d.code := by cases d <;> rfl

end Direction

/-- The line for a packet: the fields of its IPv6 header. -/
def Line.ofHeader (data : List UInt8) (d : Direction) : Line where
  dirStr := d.name
  srcAddr := Buffer.peek data 22 16
  dstAddr := Buffer.peek data 38 16
  nextHeader := Buffer.byteAt data 20
  payloadLen := (Buffer.peek data 18 2).toWord16 .big
  hopLimit := Buffer.byteAt data 21

/-- The record decodes to the header, whatever the reserved memory held. -/
theorem ofRecord_ipv6Event (data : List UInt8) (d : Direction) (event : Record) :
    Line.ofRecord (ipv6Event .little data d.code event) = Line.ofHeader data d := by
  have hsrcAddr : (ipv6Event .little data d.code event).sub 0 16 = Buffer.peek data 22 16 := by
    rw [Region.sub_eq_iff]; simp [ipv6Event]
  have hdstAddr : (ipv6Event .little data d.code event).sub 16 16 = Buffer.peek data 38 16 := by
    rw [Region.sub_eq_iff]; simp [ipv6Event]
  have hnext : (ipv6Event .little data d.code event).get 32 = Buffer.byteAt data 20 := by
    rw [Region.get_eq_iff]; simp [ipv6Event, Region.ofByte]
  have hpayload : (ipv6Event .little data d.code event).sub 33 2 =
      Region.ofWord16 .little ((Buffer.peek data 18 2).toWord16 .big) := by
    rw [Region.sub_eq_iff]; simp [ipv6Event]
  have hhops : (ipv6Event .little data d.code event).get 35 = Buffer.byteAt data 21 := by
    rw [Region.get_eq_iff]; simp [ipv6Event, Region.ofByte]
  have hdirection : (ipv6Event .little data d.code event).get 36 = d.code := by
    rw [Region.get_eq_iff]; simp [ipv6Event, Region.ofByte]
  have hname : (if d.code = 1 then "peer" else "primary") = d.name := by cases d <;> rfl
  simp only [Line.ofRecord, hsrcAddr, hdstAddr, hnext, hpayload, hhops, hdirection, hname,
    Region.toWord16_ofWord16, Line.ofHeader]

/-- What one packet leads to: a record is submitted exactly for a complete IPv6 header
and a successful reservation, it is the only one, and it is printed as the header. -/
def PrintsHeader (data : List UInt8) (reserved : Option Record) (d : Direction) : Prop :=
  ∃ evs, d.program .little data reserved = .ok (netkitPass, evs) ∧
    (evs ≠ [] ↔ IsIpv6 data ∧ reserved.isSome) ∧ evs.length ≤ 1 ∧
    ∀ ev ∈ evs, ∀ sample : GoSlice UInt8, sample.StartsWith ev →
      printEvent sample = .ok (some (Line.ofHeader data d))

theorem printsHeader (data : List UInt8) (reserved : Option Record) (d : Direction) :
    PrintsHeader data reserved d := by
  refine ⟨_, (d.program_eq .little data reserved).trans (processIpv6_eq _ _ _ _), ?_⟩
  by_cases h : IsIpv6 data
  · rw [if_pos h]
    cases reserved with
    | none => simp [h]
    | some event =>
        refine ⟨by simp [h], by simp, ?_⟩
        intro ev hev sample hsample
        obtain rfl : ev = ipv6Event .little data d.code event := by simpa using hev
        rw [printEvent_record hsample, ofRecord_ipv6Event]
  · rw [if_neg h]
    exact ⟨by simp [h], by simp, by simp⟩

/-- The probe's events round trip, and the printer accepts every slice. -/
theorem probe_roundTrip :
    (∀ data reserved d, PrintsHeader data reserved d) ∧
      ∀ sample : GoSlice UInt8, ∃ line, printEvent sample = .ok line ∧
        (line = none ↔ sample.len < 37) :=
  ⟨printsHeader, printEvent_total⟩

end Xcnf.Netkit
