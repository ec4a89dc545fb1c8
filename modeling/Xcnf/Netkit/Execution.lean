import Xcnf.Flow.Execution
import Xcnf.Netkit.Probe

/-!
# `process_ipv6` on memory

The record is filled in where it lies, in the slot that has been reserved for it, and is
submitted from there. The slot ends up with the record of `processIpv6`
(`processIpv6_run`). With `flat` the two probes of the repository are transparent
(`probes_transparent`).
-/

namespace Xcnf.Netkit.Exec

open PacketProgram

/-- From the first `memcpy` to `event->direction`. -/
def copyIpv6Data (order : ByteOrder) (ip6 event : Ptr) (direction : UInt8) : Program Unit := do
  let saddr ← load (ip6.add Ipv6hdr.saddr) 16
  store (event.add Ipv6Event.offSrcAddr) saddr
  let daddr ← load (ip6.add Ipv6hdr.daddr) 16
  store (event.add Ipv6Event.offDstAddr) daddr
  let nexthdr ← load8 (ip6.add Ipv6hdr.nexthdr)
  store (event.add Ipv6Event.offNextHeader) (Region.ofByte nexthdr)
  let payloadLen ← load (ip6.add Ipv6hdr.payloadLen) 2
  store (event.add Ipv6Event.offPayloadLen)
    (Region.ofWord16 order (bpfNtohs order (payloadLen.toWord16 order)))
  let hopLimit ← load8 (ip6.add Ipv6hdr.hopLimit)
  store (event.add Ipv6Event.offHopLimit) (Region.ofByte hopLimit)
  store (event.add Ipv6Event.offDirection) (Region.ofByte direction)

/-- `process_ipv6`, where `tail` is the offset of `data_end`. -/
def processIpv6 (order : ByteOrder) (reserved : Option Record) (direction : UInt8) :
    Program Int := do
  let tail ← dataEnd
  let eth := packetStart
  if sizeofEthhdr > tail then
    return netkitPass
  let hProto ← load (eth.add Ethhdr.hProto) 2
  if hProto.toWord16 order ≠ bpfHtons order ethPIpv6 then
    return netkitPass
  let ip6 := eth.add sizeofEthhdr
  if sizeofEthhdr + sizeofIpv6hdr > tail then
    return netkitPass
  match ← reserve (reserved.map Region.bytes) with
  | none => return netkitPass
  | some event =>
    copyIpv6Data order ip6 event direction
    submit event
    return netkitPass

variable (order : ByteOrder) (data : List UInt8) (direction : UInt8)

theorem copyIpv6Data_fills (long : 54 ≤ data.length) (i : Nat) (event : Record) :
    Fills data i event (copyIpv6Data order ⟨.packet, 14⟩ ⟨.slot i, 0⟩ direction) ()
      (ipv6Event order data direction event) := by
  unfold copyIpv6Data ipv6Event
  rw [← bpfNtohs_toWord16 order]
  simp only [Ptr.add_mk, Ipv6hdr.saddr, Ipv6hdr.daddr, Ipv6hdr.nexthdr, Ipv6hdr.payloadLen,
    Ipv6hdr.hopLimit, Ipv6Event.offSrcAddr, Ipv6Event.offDstAddr, Ipv6Event.offNextHeader,
    Ipv6Event.offPayloadLen, Ipv6Event.offHopLimit, Ipv6Event.offDirection, Nat.reduceAdd]
  refine (Fills.load (by omega)).bind ?_
  refine (Fills.store _ (by decide)).bind ?_
  refine (Fills.load (by omega)).bind ?_
  refine (Fills.store _ (by decide)).bind ?_
  refine (Fills.load8 (by omega)).bind ?_
  refine (Fills.store _ (by decide)).bind ?_
  refine (Fills.load (by omega)).bind ?_
  refine (Fills.store _ (by decide)).bind ?_
  refine (Fills.load8 (by omega)).bind ?_
  refine (Fills.store _ (by decide)).bind ?_
  exact Fills.store _ (by decide)

/-- Up to the reservation the program only reads. -/
theorem processIpv6_early (reserved : Option Record) (h : ¬ IsIpv6 data ∨ reserved = none) :
    ∃ w, OnlyReads (.start data) w ∧
      processIpv6 order reserved direction (.start data) = (netkitPass, w) := by
  rw [processIpv6, run_dataEnd]
  by_cases short : 14 > data.length
  · exact ⟨_, .refl _, congrFun (if_pos short) _⟩
  refine ⟨(World.start data).log (.read 12 2), .log (Nat.not_lt.mp short), ?_⟩
  refine (congrFun (if_neg short) _).trans ?_
  simp only [packetStart_add]
  rw [run_load]
  by_cases type : (Buffer.peek data 12 2).toWord16 order ≠ bpfHtons order ethPIpv6
  · exact congrFun (if_pos type) _
  refine (congrFun (if_neg type) _).trans ?_
  by_cases incomplete : 54 > data.length
  · exact congrFun (if_pos incomplete) _
  refine (congrFun (if_neg incomplete) _).trans ?_
  have complete : IsIpv6 data :=
    ⟨Nat.not_lt.mp incomplete, (hProto_eq_iff (Nat.not_lt.mp short)).mp (not_not.mp type)⟩
  obtain rfl := h.resolve_left (not_not.mpr complete)
  rw [Option.map_none, run_reserve_none]
  rfl

/-- The record of an IPv6 packet is submitted once it has been filled in. -/
theorem processIpv6_full (memory : Record) (h : IsIpv6 data) :
    ∃ slots reads, ReadsInside data reads ∧
      processIpv6 order (some memory) direction (.start data) =
        (netkitPass, ⟨data, slots, [.read 12 2] ++ .reserve 0 ::
          (reads ++ [.submit 0 (ipv6Event order data direction memory).bytes])⟩) := by
  have long : 54 ≤ data.length := h.1
  have type : (Buffer.peek data 12 2).toWord16 order = bpfHtons order ethPIpv6 :=
    (hProto_eq_iff (by omega)).mpr h.2
  let reserved : World := ((World.start data).log (.read 12 2)).addSlot memory.bytes
  obtain ⟨w, run, filled, reads, same, inside⟩ :=
    copyIpv6Data_fills order data direction long 0 memory reserved rfl rfl
  have packet : w.packet = data := congrArg World.packet same
  have journal : w.journal = [.read 12 2, .reserve 0] ++ reads := congrArg World.journal same
  have record : w.slots.getD 0 [] = (ipv6Event order data direction memory).bytes := by
    rw [List.getD_eq_getElem?_getD, filled]
    rfl
  refine ⟨w.slots, reads, inside, ?_⟩
  rw [processIpv6, run_dataEnd]
  refine (congrFun (if_neg (Nat.not_lt.mpr (Nat.le_trans (by decide) long))) _).trans ?_
  simp only [packetStart_add]
  rw [run_load]
  refine (congrFun (if_neg (not_not.mpr type)) _).trans ?_
  refine (congrFun (if_neg (Nat.not_lt.mpr long)) _).trans ?_
  rw [Option.map_some, run_reserve_some]
  change (submit ⟨.slot 0, 0⟩ >>= fun _ => pure netkitPass)
    (copyIpv6Data order ⟨.packet, 14⟩ ⟨.slot 0, 0⟩ direction reserved).2 = _
  rw [run, run_submit, record]
  change (netkitPass, World.mk w.packet w.slots (w.journal ++ [.submit 0 _])) = _
  rw [packet, journal, List.append_assoc]
  rfl

/-- Either it only reads, or it submits the record of an IPv6 packet. -/
theorem processIpv6_cases (reserved : Option Record) :
    (∃ memory, IsIpv6 data ∧ reserved = some memory) ∨ ¬ IsIpv6 data ∨ reserved = none := by
  cases reserved with
  | none => exact .inr (.inr rfl)
  | some memory =>
      by_cases h : IsIpv6 data
      · exact .inl ⟨memory, h, rfl⟩
      · exact .inr (.inl h)

theorem readsHProto {data : List UInt8} (h : IsIpv6 data) : ReadsInside data [.read 12 2] :=
  .single (Nat.le_trans (by decide) h.1)

/-- The program does what `processIpv6` says. -/
theorem processIpv6_run (reserved : Option Record) {code : Int} {records : List Record}
    (h : Netkit.processIpv6 order data reserved direction = .ok (code, records)) :
    (processIpv6 order reserved direction (.start data)).1 = code ∧
      emitted (processIpv6 order reserved direction (.start data)).2.journal =
        records.map Region.bytes := by
  rw [processIpv6_eq] at h
  obtain ⟨rfl, rfl⟩ := Prod.mk.inj (Except.ok.inj h)
  rcases processIpv6_cases data reserved with ⟨memory, isIpv6, rfl⟩ | early
  · obtain ⟨slots, reads, inside, run⟩ := processIpv6_full order data direction memory isIpv6
    rw [run, if_pos isIpv6]
    exact ⟨rfl, (readsHProto isIpv6).emitted_submit inside 0 _⟩
  · obtain ⟨w, ⟨reads, rfl, inside⟩, run⟩ :=
      processIpv6_early order data direction reserved early
    have none : (if IsIpv6 data then
        (reserved.map (ipv6Event order data direction)).toList else []) = [] := by
      rcases early with no | rfl
      · exact if_neg no
      · exact ite_self []
    rw [run, none]
    exact ⟨rfl, inside.emitted_eq⟩

/-- Whatever it runs on, `process_ipv6` does not interfere with it. -/
theorem processIpv6_transparent (reserved : Option Record) :
    Transparent netkitPass data (processIpv6 order reserved direction) := by
  rcases processIpv6_cases data reserved with ⟨memory, isIpv6, rfl⟩ | early
  · obtain ⟨slots, reads, inside, run⟩ := processIpv6_full order data direction memory isIpv6
    exact .of_submit (readsHProto isIpv6) inside run
  · obtain ⟨w, reads, run⟩ := processIpv6_early order data direction reserved early
    exact .of_reads reads run

end Xcnf.Netkit.Exec

namespace Xcnf.Netkit

open PacketProgram

/-- Both probes are transparent, for every packet and whatever the helpers return. -/
theorem probes_transparent (order : ByteOrder) (data : List UInt8) :
    (∀ (env : Flow.Helpers) (pktType : UInt32),
      Transparent Flow.tcActOk data (Flow.Exec.flat order env pktType)) ∧
      ∀ (reserved : Option Record) (direction : UInt8),
        Transparent netkitPass data (Exec.processIpv6 order reserved direction) :=
  ⟨Flow.Exec.flat_transparent order data,
    fun reserved direction => Exec.processIpv6_transparent order data direction reserved⟩

end Xcnf.Netkit
