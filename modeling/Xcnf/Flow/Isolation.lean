import Mathlib.Data.Sym.Sym2
import Xcnf.Lib.Family
import Xcnf.Flow.Consumer

/-!
# Flows do not disturb each other

A flow is an unordered pair of endpoints and a protocol. Seen from its own packets it is
an automaton with two kinds of state: idle, or open since some time. `CalcLatency` keeps
the open flows of all automata in one table under their hashes. As long as the monitored
flows of a sequence have different hashes, the table is the family of automata, and what
one flow does cannot be told from a run of its own packets alone.
-/

namespace Xcnf.Flow

/-! ## Flows -/

/-- A flow, blind to the direction of its packets. -/
@[ext] structure FiveTuple where
  ends : Sym2 (Addr × UInt16)
  protocol : UInt8

-- the derived instance does not reduce on quotients
instance : DecidableEq FiveTuple := fun f g =>
  decidable_of_iff (f.ends = g.ends ∧ f.protocol = g.protocol) FiveTuple.ext_iff.symm

def Packet.flow (pkt : Packet) : FiveTuple where
  ends := s((pkt.srcIP, pkt.srcPort), (pkt.dstIP, pkt.dstPort))
  protocol := pkt.protocol

/-- The bytes of an endpoint, hashed. -/
def endpointHash (e : Addr × UInt16) : UInt64 := hash (e.1.asSlice ++ ByteOrder.big.bytes16 e.2)

/-- The key of a flow in the table. -/
def FiveTuple.hash (f : FiveTuple) : UInt64 :=
  f.ends.lift ⟨fun a b => endpointHash a + endpointHash b, fun _ _ => UInt64.add_comm _ _⟩ +
    Flow.hash (ByteOrder.big.bytes16 f.protocol.toUInt16)

/-- `Hash` depends on the flow of a packet only: not on its direction, nor on its TTL,
flags and timestamp. -/
theorem Packet.hash_eq (pkt : Packet) : pkt.hash = pkt.flow.hash := rfl

/-! ## The automaton of one flow -/

/-- `none` is idle, `some t0` is open since `t0`. -/
abbrev FlowState := Option UInt64

/-- One packet of the flow: the next state, and the two times that are reported. -/
def FlowState.next : FlowState → Packet → FlowState × Option (UInt64 × UInt64)
  | none, pkt => if pkt.Opens then (some pkt.timestamp, none) else (none, none)
  | some t0, pkt =>
      if pkt.Closes then (none, some (t0, pkt.timestamp)) else (some t0, none)

/-- The automaton together with the line that the program prints. -/
def FlowState.printing : FlowState → Packet → FlowState × Option Report
  | none, pkt => if pkt.Opens then (some pkt.timestamp, none) else (none, none)
  | some t0, pkt =>
      if pkt.Closes then (none, (ipProtoNums pkt.protocol).map fun proto => report proto pkt t0)
      else (some t0, none)

/-- The two times of a printed latency. -/
def Report.times (r : Report) : UInt64 × UInt64 := (r.opened, r.closed)

theorem FlowState.next_eq (s : FlowState) (pkt : Packet) :
    s.next pkt = ((s.printing pkt).1, (s.printing pkt).2.map Report.times) := by
  cases s with
  | none =>
      simp only [next, printing]
      split <;> rfl
  | some t0 =>
      simp only [next, printing]
      by_cases closes : pkt.Closes
      · obtain ⟨proto, hproto, _⟩ := ipProtoNums_eq_some closes.monitored
        rw [if_pos closes, if_pos closes, hproto]
        rfl
      · rw [if_neg closes, if_neg closes]
        rfl

/-- Packets of other protocols change nothing. -/
theorem FlowState.printing_unmonitored (s : FlowState) {pkt : Packet} (h : ¬ pkt.Monitored) :
    s.printing pkt = (s, none) := by
  cases s with
  | none => exact if_neg fun opens => h opens.monitored
  | some t0 => exact if_neg fun closes => h closes.monitored

/-- `CalcLatency` moves the automaton whose state its table shows, in every case. -/
theorem calcLatency_printing {pkt : Packet} (h : pkt.Monitored) (table : FlowTable) :
    (calcLatency pkt table).2.get pkt.hash = (FlowState.printing (table.get pkt.hash) pkt).1 ∧
      (calcLatency pkt table).1.report? = (FlowState.printing (table.get pkt.hash) pkt).2 := by
  obtain ⟨unmonitored, _⟩ | ⟨absent, opens, e⟩ | ⟨absent, ignored, e⟩ |
      ⟨proto, ts, hproto, present, closes, e⟩ | ⟨ts, present, kept, e⟩ :=
    calcLatency_cases pkt table
  · exact absurd h unmonitored
  · rw [e, absent, FlowState.printing, if_pos opens]
    exact ⟨FlowTable.get_insert_self table pkt.hash pkt.timestamp, rfl⟩
  · rw [e, absent, FlowState.printing, if_neg ignored]
    exact ⟨rfl, rfl⟩
  · rw [e, present, FlowState.printing, if_pos closes, hproto]
    exact ⟨FlowTable.get_remove_self table pkt.hash, rfl⟩
  · rw [e, present, FlowState.printing, if_neg kept]
    exact ⟨rfl, rfl⟩

/-! ## The table is a family of automata -/

/-- The latencies printed in a run, each with the flow of the packet it was printed for. -/
def flowReports (pkts : List Packet) (table : FlowTable) : List (FiveTuple × Report) :=
  (pkts.zip (calcLatencies pkts table).1).filterMap fun (pkt, outcome) =>
    outcome.report?.map (pkt.flow, ·)

theorem flowReports_cons (pkt : Packet) (pkts : List Packet) (table : FlowTable) :
    flowReports (pkt :: pkts) table =
      ((calcLatency pkt table).1.report?.map (pkt.flow, ·)).toList ++
        flowReports pkts (calcLatency pkt table).2 := by
  simp only [flowReports, calcLatencies, List.zip_cons_cons, List.filterMap_cons]
  cases (calcLatency pkt table).1.report? <;> rfl

/-- The table after a run. -/
def tableAfter (pkts : List Packet) (table : FlowTable) : FlowTable := (calcLatencies pkts table).2

/-- The monitored flows of a sequence. -/
def monitoredFlows (pkts : List Packet) : Set FiveTuple :=
  {f | ∃ pkt ∈ pkts, pkt.Monitored ∧ pkt.flow = f}

/-- No two different monitored flows of the sequence have the same hash. -/
def NoCollision (pkts : List Packet) : Prop :=
  ∀ p ∈ pkts, ∀ q ∈ pkts, p.Monitored → q.Monitored → p.hash = q.hash → p.flow = q.flow

instance (pkts : List Packet) : Decidable (NoCollision pkts) :=
  inferInstanceAs (Decidable (∀ p ∈ pkts, _))

theorem NoCollision.injOn {pkts : List Packet} (h : NoCollision pkts) :
    Set.InjOn FiveTuple.hash (monitoredFlows pkts) := by
  rintro _ ⟨p, hp, monitoredP, rfl⟩ _ ⟨q, hq, monitoredQ, rfl⟩ same
  exact h p hp q hq monitoredP monitoredQ same

theorem NoCollision.subset {pkts front : List Packet} (h : NoCollision pkts)
    (sub : ∀ p ∈ front, p ∈ pkts) : NoCollision front :=
  fun p hp q hq => h p (sub p hp) q (sub q hq)

/-- The table shows the open flows of the family, all of them flows in use. -/
structure Shows (used : Set FiveTuple) (table : FlowTable) (σ : FiveTuple → FlowState) : Prop where
  represents : Family.Represents FiveTuple.hash table.get σ
  support : ∀ f, σ f ≠ none → f ∈ used

theorem Shows.empty (used : Set FiveTuple) : Shows used SyncMap.empty fun _ => none := by
  refine ⟨?_, fun f h => absurd rfl h⟩
  have nothing : FlowTable.get SyncMap.empty = fun _ => none := funext FlowTable.get_empty
  rw [nothing]
  exact Family.Represents.empty

variable {used : Set FiveTuple} {table : FlowTable} {σ : FiveTuple → FlowState}

/-- One packet moves the member of its flow and is reported as that member reports. -/
theorem Shows.calcLatency (shows : Shows used table σ) (inj : Set.InjOn FiveTuple.hash used)
    {pkt : Packet} (hused : pkt.Monitored → pkt.flow ∈ used) :
    Shows used (calcLatency pkt table).2
        (Function.update σ pkt.flow ((σ pkt.flow).printing pkt).1) ∧
      (calcLatency pkt table).1.report? = ((σ pkt.flow).printing pkt).2 := by
  by_cases h : pkt.Monitored
  · have here := shows.represents.view_key inj shows.support (hused h)
    rw [← Packet.hash_eq] at here
    obtain ⟨moved, reported⟩ := calcLatency_printing h table
    rw [here] at moved reported
    refine ⟨⟨shows.represents.update inj shows.support (hused h) _ moved ?_, ?_⟩, reported⟩
    · exact fun k hk => calcLatency_get_ne hk
    · intro f hf
      by_cases hflow : f = pkt.flow
      · exact hflow ▸ hused h
      · rw [Function.update_of_ne hflow] at hf
        exact shows.support f hf
  · rw [calcLatency_unknown (ipProtoNums_eq_none h), FlowState.printing_unmonitored _ h,
      Function.update_eq_self]
    exact ⟨shows, rfl⟩

/-- The run of the table is the run of the family. -/
theorem Shows.calcLatencies (shows : Shows used table σ) (inj : Set.InjOn FiveTuple.hash used)
    {pkts : List Packet} (hused : ∀ pkt ∈ pkts, pkt.Monitored → pkt.flow ∈ used) :
    Shows used (tableAfter pkts table)
        (Family.feedAll FlowState.printing Packet.flow σ pkts).1 ∧
      flowReports pkts table = (Family.feedAll FlowState.printing Packet.flow σ pkts).2 := by
  induction pkts generalizing table σ with
  | nil => exact ⟨shows, rfl⟩
  | cons pkt pkts ih =>
      obtain ⟨moved, reported⟩ := shows.calcLatency inj (hused pkt List.mem_cons_self)
      obtain ⟨final, rest⟩ := ih moved fun p hp => hused p (List.mem_cons_of_mem pkt hp)
      refine ⟨final, ?_⟩
      rw [flowReports_cons, reported, rest]
      rfl

/-! ## Runs from the empty table -/

/-- The packets of one flow. -/
abbrev packetsOf (f : FiveTuple) (pkts : List Packet) : List Packet :=
  Family.inputsOf Packet.flow f pkts

variable {pkts : List Packet}

theorem NoCollision.run (h : NoCollision pkts) :
    Shows (monitoredFlows pkts) (tableAfter pkts SyncMap.empty)
        (Family.feedAll FlowState.printing Packet.flow (fun _ => none) pkts).1 ∧
      flowReports pkts SyncMap.empty =
        (Family.feedAll FlowState.printing Packet.flow (fun _ => none) pkts).2 :=
  (Shows.empty (monitoredFlows pkts)).calcLatencies h.injOn
    fun p hp monitored => ⟨p, hp, monitored, rfl⟩

/-- The table holds the open flows, each under its hash, and nothing else. -/
theorem NoCollision.get_iff (h : NoCollision pkts) (k t0 : UInt64) :
    (tableAfter pkts SyncMap.empty).get k = some t0 ↔
      ∃ f, f.hash = k ∧ (Family.feed FlowState.next none (packetsOf f pkts)).1 = some t0 := by
  rw [h.run.1.represents k t0]
  simp only [Family.feedAll_state, Family.feed_map FlowState.printing Report.times
    FlowState.next_eq]

theorem NoCollision.reportsOf_eq (h : NoCollision pkts) (f : FiveTuple) :
    Family.reportsOf f (flowReports pkts SyncMap.empty) =
      (Family.feed FlowState.printing none (packetsOf f pkts)).2 := by
  rw [h.run.2, Family.feedAll_reports]

/-- In a run of one flow's packets every report is that flow's. -/
theorem reportsOf_own {f : FiveTuple} (own : ∀ p ∈ pkts, p.flow = f) (table : FlowTable) :
    Family.reportsOf f (flowReports pkts table) = reports (calcLatencies pkts table).1 := by
  induction pkts generalizing table with
  | nil => rfl
  | cons pkt pkts ih =>
      have here : pkt.flow = f := own pkt List.mem_cons_self
      have rest := ih (fun p hp => own p (List.mem_cons_of_mem pkt hp)) (calcLatency pkt table).2
      rw [flowReports_cons, Family.reportsOf_append, here, Family.reportsOf_self, rest]
      simp only [reports, calcLatencies, List.filterMap_cons]
      cases (calcLatency pkt table).1.report? <;> rfl

/-- A run whose flows are independent automata. -/
structure Isolated (pkts : List Packet) : Prop where
  /-- After every prefix the table is the set of open flows. -/
  table : ∀ front, front <+: pkts → ∀ k t0,
    (tableAfter front SyncMap.empty).get k = some t0 ↔
      ∃ f, f.hash = k ∧ (Family.feed FlowState.next none (packetsOf f front)).1 = some t0
  /-- `Insert` never overwrites an entry. -/
  fresh : ∀ front pkt, front ++ [pkt] <+: pkts → ∀ k ts,
    (calcLatency pkt (tableAfter front SyncMap.empty)).1 = .inserted k ts →
      (tableAfter front SyncMap.empty).get k = none
  /-- The times reported for a flow are those its automaton reports. -/
  times : ∀ f, (Family.reportsOf f (flowReports pkts SyncMap.empty)).map Report.times =
    (Family.feed FlowState.next none (packetsOf f pkts)).2
  /-- What is printed for a flow is what is printed when its packets are run alone. -/
  alone : ∀ f, Family.reportsOf f (flowReports pkts SyncMap.empty) =
    reports (calcLatencies (packetsOf f pkts) SyncMap.empty).1
  /-- Neighbours of different flows may be exchanged. -/
  swap : ∀ front p q back, pkts = front ++ p :: q :: back → p.flow ≠ q.flow →
    tableAfter (front ++ q :: p :: back) SyncMap.empty = tableAfter pkts SyncMap.empty ∧
      ∀ f, Family.reportsOf f (flowReports (front ++ q :: p :: back) SyncMap.empty) =
        Family.reportsOf f (flowReports pkts SyncMap.empty)

/-- An insertion happens only where the table has no entry. -/
theorem get_of_inserted {pkt : Packet} {table : FlowTable} {k ts : UInt64}
    (h : (calcLatency pkt table).1 = .inserted k ts) : table.get k = none := by
  obtain ⟨_, e⟩ | ⟨absent, _, e⟩ | ⟨_, _, e⟩ | ⟨_, _, _, _, _, e⟩ | ⟨_, _, _, e⟩ :=
    calcLatency_cases pkt table <;> rw [e] at h
  case inr.inl => exact (Outcome.inserted.inj h).1 ▸ absent
  all_goals contradiction

/-- Two runs with the same packets of each flow end with the same table, and print the
same for each flow. -/
theorem NoCollision.congr {pkts' : List Packet} (h : NoCollision pkts) (h' : NoCollision pkts')
    (same : ∀ f, packetsOf f pkts' = packetsOf f pkts) :
    tableAfter pkts' SyncMap.empty = tableAfter pkts SyncMap.empty ∧
      ∀ f, Family.reportsOf f (flowReports pkts' SyncMap.empty) =
        Family.reportsOf f (flowReports pkts SyncMap.empty) := by
  constructor
  · apply SyncMap.ext
    intro k
    apply Option.ext
    intro t0
    calc
      (tableAfter pkts' SyncMap.empty).get k = some t0
        ↔ ∃ f, f.hash = k ∧ (Family.feed FlowState.next none (packetsOf f pkts')).1 = some t0 :=
          h'.get_iff k t0
      _ ↔ ∃ f, f.hash = k ∧ (Family.feed FlowState.next none (packetsOf f pkts)).1 = some t0 := by
          simp only [same]
      _ ↔ (tableAfter pkts SyncMap.empty).get k = some t0 := (h.get_iff k t0).symm
  · intro f
    rw [h.reportsOf_eq, h'.reportsOf_eq, same]

/-- Without collisions `CalcLatency` is a family of independent automata. -/
theorem calcLatencies_isolated (h : NoCollision pkts) : Isolated pkts where
  table := by
    intro front hfront
    exact (h.subset fun p hp => hfront.subset hp).get_iff
  fresh := fun front pkt _ k ts => get_of_inserted
  times := by
    intro f
    rw [h.reportsOf_eq, Family.feed_map FlowState.printing Report.times FlowState.next_eq]
  alone := by
    intro f
    have sub : ∀ p ∈ packetsOf f pkts, p ∈ pkts := fun p hp => (List.mem_filter.mp hp).1
    have own : ∀ p ∈ packetsOf f pkts, p.flow = f := fun p hp => by
      simpa using (List.mem_filter.mp hp).2
    have again : packetsOf f (packetsOf f pkts) = packetsOf f pkts :=
      Family.inputsOf_inputsOf Packet.flow f pkts
    rw [← reportsOf_own own, h.reportsOf_eq, (h.subset sub).reportsOf_eq, again]
  swap := by
    rintro front p q back rfl hne
    refine h.congr (h.subset fun r hr => ?_) fun f => ?_
    · simp only [List.mem_append, List.mem_cons] at hr ⊢
      tauto
    · exact Family.inputsOf_swap Packet.flow (Ne.symm hne) front back f

/-- A handshake with a lookup in between. -/
def lookupDuringHandshake : List Packet :=
  [lanPacket (1, 40000) (2, 443) 6 true false 1000,
    lanPacket (1, 50000) (3, 53) 17 false false 1500,
    lanPacket (3, 53) (1, 50000) 17 false false 2500,
    lanPacket (2, 443) (1, 40000) 6 true true 3000]

theorem lookupDuringHandshake_isolated :
    NoCollision lookupDuringHandshake ∧ Isolated lookupDuringHandshake :=
  ⟨by decide +kernel, calcLatencies_isolated (by decide +kernel)⟩

example : (reports (calcLatencies lookupDuringHandshake SyncMap.empty).1).map Report.times =
    [(1500, 2500), (1000, 3000)] := by decide +kernel

end Xcnf.Flow
