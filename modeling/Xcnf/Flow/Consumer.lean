import Xcnf.Flow.Decode

/-!
# The consumer of the ring buffer

`receive` is the body of the case of `Run`'s select loop that takes a sample from the
channel. With no prune in between, the consumer's run over a list of samples is
`receiveAll`; once the samples are decoded, it is the run of `CalcLatency` over the
packets (`receiveAll_decoded`).
-/

namespace Xcnf.Flow

/-- A sample that does not decode is logged and skipped. -/
def receive (sample : GoSlice UInt8) (table : FlowTable) : Go (Option Outcome × FlowTable) := do
  match ← unmarshalBinary sample with
  | none => return (none, table)
  | some pkt => return ((calcLatency pkt table).map some id)

/-- The samples in the order they are received. -/
def receiveAll : List (GoSlice UInt8) → FlowTable → Go (List Outcome × FlowTable)
  | [], table => return ([], table)
  | sample :: samples, table => do
    let (outcome, table) ← receive sample table
    let (outcomes, table) ← receiveAll samples table
    return (outcome.toList ++ outcomes, table)

/-- `CalcLatency` on one packet after the other. -/
def calcLatencies : List Packet → FlowTable → List Outcome × FlowTable
  | [], table => ([], table)
  | pkt :: pkts, table =>
    let first := calcLatency pkt table
    let rest := calcLatencies pkts first.2
    (first.1 :: rest.1, rest.2)

/-- The latency printed, if one is. -/
def Outcome.report? : Outcome → Option Report
  | .reported r => some r
  | _ => none

/-- The latencies printed, in order. -/
def reports (outcomes : List Outcome) : List Report := outcomes.filterMap Outcome.report?

theorem receive_decoded {sample : GoSlice UInt8} {pkt : Packet} (table : FlowTable)
    (h : unmarshalBinary sample = .ok (some pkt)) :
    receive sample table = .ok (some (calcLatency pkt table).1, (calcLatency pkt table).2) := by
  rw [receive, h]
  rfl

/-- On samples that decode, the consumer runs `CalcLatency` on their packets. -/
theorem receiveAll_decoded {samples : List (GoSlice UInt8)} {pkts : List Packet}
    (table : FlowTable)
    (h : List.Forall₂ (fun s p => unmarshalBinary s = .ok (some p)) samples pkts) :
    receiveAll samples table = .ok (calcLatencies pkts table) := by
  induction h generalizing table with
  | nil => rfl
  | cons first _ ih =>
      rw [receiveAll, receive_decoded table first, Checked.ok_bind]
      simp only [ih, Checked.ok_bind]
      rfl

/-- A packet between two hosts of one network, to run the program on. -/
def lanPacket (src dst : UInt8 × UInt16) (protocol : UInt8) (syn ack : Bool) (ts : UInt64) :
    Packet where
  srcIP := .mapped ⟨[10, 0, 0, src.1], rfl⟩
  dstIP := .mapped ⟨[10, 0, 0, dst.1], rfl⟩
  srcPort := src.2
  dstPort := dst.2
  protocol := protocol
  ttl := 64
  syn := syn
  ack := ack
  timestamp := ts

/-! ## One packet -/

/-- TCP and UDP packets are looked up in the table. -/
def Packet.Monitored (pkt : Packet) : Prop := pkt.protocol = 6 ∨ pkt.protocol = 17

/-- An idle flow is opened by a SYN, or by any datagram. -/
def Packet.Opens (pkt : Packet) : Prop := pkt.protocol = 6 ∧ pkt.syn ∨ pkt.protocol = 17

/-- An open flow is closed by an ACK, or by any datagram. -/
def Packet.Closes (pkt : Packet) : Prop := pkt.protocol = 6 ∧ pkt.ack ∨ pkt.protocol = 17

instance (pkt : Packet) : Decidable pkt.Monitored := inferInstanceAs (Decidable (_ ∨ _))

instance (pkt : Packet) : Decidable pkt.Opens := inferInstanceAs (Decidable (_ ∨ _))

instance (pkt : Packet) : Decidable pkt.Closes := inferInstanceAs (Decidable (_ ∨ _))

theorem ipProtoNums_eq_none {pkt : Packet} (h : ¬ pkt.Monitored) :
    ipProtoNums pkt.protocol = none := by
  obtain ⟨tcp, udp⟩ := not_or.mp h
  rw [ipProtoNums, if_neg tcp, if_neg udp]

theorem ipProtoNums_eq_some {pkt : Packet} (h : pkt.Monitored) :
    ∃ proto, ipProtoNums pkt.protocol = some proto ∧
      (pkt.syn ∨ proto = .udp ↔ pkt.Opens) ∧ (pkt.ack ∨ proto = .udp ↔ pkt.Closes) := by
  rcases h with h | h
  · exact ⟨.tcp, by simp [ipProtoNums, h], by simp [Packet.Opens, h], by simp [Packet.Closes, h]⟩
  · exact ⟨.udp, by simp [ipProtoNums, h], by simp [Packet.Opens, h], by simp [Packet.Closes, h]⟩

theorem Packet.Closes.monitored {pkt : Packet} (h : pkt.Closes) : pkt.Monitored :=
  h.imp And.left id

theorem Packet.Opens.monitored {pkt : Packet} (h : pkt.Opens) : pkt.Monitored := h.imp And.left id

variable {pkt : Packet} {table : FlowTable}

theorem calcLatency_unknown (h : ipProtoNums pkt.protocol = none) :
    calcLatency pkt table = (.unknownProtocol pkt.protocol, table) := by
  simp only [calcLatency, h]

/-- A packet whose flow is not in the table opens it with SYN, or as a datagram. -/
theorem calcLatency_absent {proto : Proto} (h : ipProtoNums pkt.protocol = some proto)
    (absent : table.get pkt.hash = none) :
    calcLatency pkt table =
      if pkt.syn ∨ proto = .udp then
        (.inserted pkt.hash pkt.timestamp, table.insert pkt.hash pkt.timestamp)
      else (.ignored, table) := by
  simp only [calcLatency, h, absent]
  by_cases hsyn : pkt.syn
  · simp only [hsyn, true_or, if_true]
  · by_cases hudp : proto = .udp <;> simp [hsyn, hudp]

/-- A packet whose flow is in the table closes it with ACK, or as a datagram. -/
theorem calcLatency_present {proto : Proto} {ts : UInt64}
    (h : ipProtoNums pkt.protocol = some proto) (present : table.get pkt.hash = some ts) :
    calcLatency pkt table =
      if pkt.ack ∨ proto = .udp then (.reported (report proto pkt ts), table.remove pkt.hash)
      else (.kept, table) := by
  simp only [calcLatency, h, present]
  by_cases hack : pkt.ack
  · simp only [hack, true_or, if_true]
  · by_cases hudp : proto = .udp <;> simp [hack, hudp]

/-- The ways through `CalcLatency`: what the table has for the packet's flow, what the
packet does to the flow, and what comes of it. -/
theorem calcLatency_cases (pkt : Packet) (table : FlowTable) :
    (¬ pkt.Monitored ∧ calcLatency pkt table = (.unknownProtocol pkt.protocol, table)) ∨
    (table.get pkt.hash = none ∧ pkt.Opens ∧
      calcLatency pkt table =
        (.inserted pkt.hash pkt.timestamp, table.insert pkt.hash pkt.timestamp)) ∨
    (table.get pkt.hash = none ∧ ¬ pkt.Opens ∧ calcLatency pkt table = (.ignored, table)) ∨
    (∃ proto ts, ipProtoNums pkt.protocol = some proto ∧ table.get pkt.hash = some ts ∧
      pkt.Closes ∧
      calcLatency pkt table = (.reported (report proto pkt ts), table.remove pkt.hash)) ∨
    (∃ ts, table.get pkt.hash = some ts ∧ ¬ pkt.Closes ∧
      calcLatency pkt table = (.kept, table)) := by
  by_cases monitored : pkt.Monitored
  · obtain ⟨proto, hproto, opens, closes⟩ := ipProtoNums_eq_some monitored
    cases hget : table.get pkt.hash with
    | none =>
        rw [calcLatency_absent hproto hget]
        by_cases h : pkt.Opens
        · exact .inr (.inl ⟨rfl, h, if_pos (opens.mpr h)⟩)
        · exact .inr (.inr (.inl ⟨rfl, h, if_neg (h ∘ opens.mp)⟩))
    | some ts =>
        rw [calcLatency_present hproto hget]
        by_cases h : pkt.Closes
        · exact .inr (.inr (.inr (.inl ⟨proto, ts, hproto, rfl, h, if_pos (closes.mpr h)⟩)))
        · exact .inr (.inr (.inr (.inr ⟨ts, rfl, h, if_neg (h ∘ closes.mp)⟩)))
  · exact .inl ⟨monitored, calcLatency_unknown (ipProtoNums_eq_none monitored)⟩

/-- A latency is only ever printed for a flow that is in the table, by a packet that
closes it. -/
theorem calcLatency_reported {r : Report} (h : (calcLatency pkt table).1 = .reported r) :
    ∃ proto ts, table.get pkt.hash = some ts ∧ pkt.Closes ∧ r = report proto pkt ts := by
  obtain ⟨_, e⟩ | ⟨_, _, e⟩ | ⟨_, _, e⟩ | ⟨proto, ts, _, present, closes, e⟩ | ⟨_, _, _, e⟩ :=
    calcLatency_cases pkt table <;> rw [e] at h
  case inr.inr.inr.inl => exact ⟨proto, ts, present, closes, (Outcome.reported.inj h).symm⟩
  all_goals contradiction

/-- No other key is touched. -/
theorem calcLatency_get_ne {k : UInt64} (hk : k ≠ pkt.hash) :
    (calcLatency pkt table).2.get k = table.get k := by
  obtain ⟨_, e⟩ | ⟨_, _, e⟩ | ⟨_, _, e⟩ | ⟨_, _, _, _, _, e⟩ | ⟨_, _, _, e⟩ :=
    calcLatency_cases pkt table <;> rw [e]
  · exact FlowTable.get_insert_ne table pkt.timestamp hk
  · exact FlowTable.get_remove_ne table hk

/-- An entry is there after a packet only if it was there before, or is the packet's own. -/
theorem get_of_calcLatency {k t0 : UInt64} (h : (calcLatency pkt table).2.get k = some t0) :
    table.get k = some t0 ∨ k = pkt.hash ∧ t0 = pkt.timestamp ∧ pkt.Opens := by
  by_cases hk : k = pkt.hash
  · subst hk
    obtain ⟨_, e⟩ | ⟨_, opens, e⟩ | ⟨_, _, e⟩ | ⟨_, _, _, _, _, e⟩ | ⟨_, _, _, e⟩ :=
      calcLatency_cases pkt table <;> rw [e] at h
    · exact .inl h
    · rw [FlowTable.get_insert_self, Option.some.injEq] at h
      exact .inr ⟨rfl, h.symm, opens⟩
    · exact .inl h
    · rw [FlowTable.get_remove_self] at h
      contradiction
    · exact .inl h
  · rw [calcLatency_get_ne hk] at h
    exact .inl h

/-- Every latency printed in a run is printed for one of its packets. -/
theorem mem_reports {pkts : List Packet} {r : Report}
    (h : r ∈ reports (calcLatencies pkts table).1) :
    ∃ pkt ∈ pkts, ∃ proto ts, r = report proto pkt ts := by
  induction pkts generalizing table with
  | nil => simp [calcLatencies, reports] at h
  | cons pkt pkts ih =>
      simp only [calcLatencies, reports, List.filterMap_cons] at h
      cases hout : (calcLatency pkt table).1 with
      | reported r' =>
          rw [hout] at h
          obtain rfl | later := List.mem_cons.mp h
          · obtain ⟨proto, ts, _, _, rfl⟩ := calcLatency_reported hout
            exact ⟨pkt, List.mem_cons_self, proto, ts, rfl⟩
          · obtain ⟨p, hp, rest⟩ := ih later
            exact ⟨p, List.mem_cons_of_mem pkt hp, rest⟩
      | unknownProtocol | inserted | ignored | kept =>
          rw [hout] at h
          obtain ⟨p, hp, rest⟩ := ih h
          exact ⟨p, List.mem_cons_of_mem pkt hp, rest⟩

end Xcnf.Flow
