import Xcnf.Flow.Isolation

/-!
# Which two packets a latency is measured between

Every latency is measured from the packet that opened the flow to the first later packet
of the flow that can close it (`exists_measures`). `CalcLatency` looks neither at the
Ack flag of the packet that opens a flow nor at the direction of the one that closes it.
A SYN-ACK that finds the flow idle opens it (`measuredFromSyn_iff`), and a second datagram
in the same direction closes it (`joinsFlow`).
-/

namespace Xcnf.Flow

/-! ## Runs, packet by packet -/

theorem tableAfter_cons (pkt : Packet) (pkts : List Packet) (table : FlowTable) :
    tableAfter (pkt :: pkts) table = tableAfter pkts (calcLatency pkt table).2 := rfl

theorem tableAfter_append (front back : List Packet) (table : FlowTable) :
    tableAfter (front ++ back) table = tableAfter back (tableAfter front table) := by
  induction front generalizing table with
  | nil => rfl
  | cons pkt front ih => exact ih (calcLatency pkt table).2

/-- What comes of a packet that is fed after `front`, from the empty table on. -/
def outcomeAfter (front : List Packet) (pkt : Packet) : Outcome :=
  (calcLatency pkt (tableAfter front SyncMap.empty)).1

/-- The outcomes of a run are those of its packets, each after the packets before it. -/
theorem outcomes_split (front : List Packet) (pkt : Packet) (back : List Packet) :
    (calcLatencies (front ++ pkt :: back) SyncMap.empty).1 =
      (calcLatencies front SyncMap.empty).1 ++ outcomeAfter front pkt ::
        (calcLatencies back (tableAfter (front ++ [pkt]) SyncMap.empty)).1 := by
  have outcomes_append (xs ys : List Packet) (table : FlowTable) :
      (calcLatencies (xs ++ ys) table).1 =
        (calcLatencies xs table).1 ++ (calcLatencies ys (tableAfter xs table)).1 := by
    induction xs generalizing table with
    | nil => rfl
    | cons x xs ih => exact congrArg _ (ih (calcLatency x table).2)
  rw [outcomes_append, tableAfter_append]
  rfl

variable {k ts : UInt64} {table : FlowTable} {pkt : Packet}

/-- An entry stays under its key until a packet closes it. -/
theorem get_calcLatency_of_not_closes (h : table.get k = some ts)
    (quiet : pkt.hash = k → ¬ pkt.Closes) : (calcLatency pkt table).2.get k = some ts := by
  by_cases hk : k = pkt.hash
  · obtain ⟨_, e⟩ | ⟨absent, _, _⟩ | ⟨_, _, e⟩ | ⟨_, _, _, _, closes, _⟩ | ⟨_, _, _, e⟩ :=
      calcLatency_cases pkt table
    · rw [e, h]
    · rw [← hk, h] at absent
      contradiction
    · rw [e, h]
    · exact absurd closes (quiet hk.symm)
    · rw [e, h]
  · rw [calcLatency_get_ne hk, h]

theorem get_tableAfter_of_not_closes {pkts : List Packet} (h : table.get k = some ts)
    (quiet : ∀ s ∈ pkts, s.hash = k → ¬ s.Closes) : (tableAfter pkts table).get k = some ts := by
  induction pkts generalizing table with
  | nil => exact h
  | cons pkt pkts ih =>
      exact ih (get_calcLatency_of_not_closes h (quiet pkt List.mem_cons_self))
        fun s hs => quiet s (List.mem_cons_of_mem pkt hs)

/-- After a packet that opens and does not close, its flow is in the table. -/
theorem get_calcLatency_of_opens (table : FlowTable) (opens : pkt.Opens) (h : ¬ pkt.Closes) :
    ∃ ts, (calcLatency pkt table).2.get pkt.hash = some ts := by
  cases hget : table.get pkt.hash with
  | some ts => exact ⟨ts, get_calcLatency_of_not_closes hget fun _ => h⟩
  | none =>
      obtain ⟨unmonitored, _⟩ | ⟨_, _, e⟩ | ⟨_, ignored, _⟩ | ⟨_, _, _, present, _, _⟩ |
          ⟨_, present, _, _⟩ := calcLatency_cases pkt table
      · exact absurd opens.monitored unmonitored
      · exact ⟨pkt.timestamp, by rw [e]; exact FlowTable.get_insert_self table _ _⟩
      · exact absurd opens ignored
      · rw [hget] at present
        contradiction
      · rw [hget] at present
        contradiction

/-- After `front` the key `k` holds the time of `p`, which came after `start`, and none of
the packets `between` could have closed it. -/
structure StoredBy (front : List Packet) (k ts : UInt64) (start : List Packet) (p : Packet)
    (between : List Packet) : Prop where
  split : front = start ++ p :: between
  hash : p.hash = k
  time : p.timestamp = ts
  opens : p.Opens
  opened : outcomeAfter start p = .inserted k ts
  waiting : ∀ s ∈ between, s.hash = k → ¬ s.Closes

theorem StoredBy.snoc {front start between : List Packet} {p : Packet}
    (h : StoredBy front k ts start p between) (quiet : pkt.hash = k → ¬ pkt.Closes) :
    StoredBy (front ++ [pkt]) k ts start p (between ++ [pkt]) where
  split := by rw [h.split, List.append_assoc, List.cons_append]
  hash := h.hash
  time := h.time
  opens := h.opens
  opened := h.opened
  waiting := by
    intro s hs
    rcases List.mem_append.mp hs with hs | hs
    · exact h.waiting s hs
    · exact List.mem_singleton.mp hs ▸ quiet

/-- Every entry has been stored by a packet of the run. -/
theorem exists_storedBy {front : List Packet}
    (h : (tableAfter front SyncMap.empty).get k = some ts) :
    ∃ start p between, StoredBy front k ts start p between := by
  induction front using List.reverseRecOn with
  | nil =>
      rw [tableAfter, calcLatencies, FlowTable.get_empty] at h
      contradiction
  | append_singleton front pkt ih =>
      have last : (calcLatency pkt (tableAfter front SyncMap.empty)).2.get k = some ts := by
        rwa [tableAfter_append] at h
      have earlier (before : (tableAfter front SyncMap.empty).get k = some ts)
          (quiet : pkt.hash = k → ¬ pkt.Closes) :
          ∃ start p between, StoredBy (front ++ [pkt]) k ts start p between := by
        obtain ⟨start, p, between, stored⟩ := ih before
        exact ⟨start, p, between ++ [pkt], stored.snoc quiet⟩
      by_cases hk : k = pkt.hash
      · subst hk
        obtain ⟨unmonitored, e⟩ | ⟨_, opens, e⟩ | ⟨absent, _, e⟩ | ⟨_, _, _, _, _, e⟩ |
            ⟨_, _, kept, e⟩ := calcLatency_cases pkt (tableAfter front SyncMap.empty) <;>
          rw [e] at last
        · exact earlier last fun _ closes => unmonitored closes.monitored
        · have time : pkt.timestamp = ts :=
            Option.some.inj ((FlowTable.get_insert_self _ _ _).symm.trans last)
          refine ⟨front, pkt, [], rfl, rfl, time, opens, ?_, fun s hs => by contradiction⟩
          rw [outcomeAfter, e, time]
        · rw [absent] at last
          contradiction
        · rw [FlowTable.get_remove_self] at last
          contradiction
        · exact earlier last fun _ => kept
      · rw [calcLatency_get_ne hk] at last
        exact earlier last fun same => absurd same.symm hk

/-! ## The two packets of a latency -/

/-- A packet of TCP opens and closes by its flags. -/
theorem Packet.Opens.syn (h : pkt.Opens) (tcp : pkt.protocol = 6) : pkt.syn := by
  rcases h with ⟨_, syn⟩ | udp
  · exact syn
  · rw [tcp] at udp
    contradiction

theorem Packet.Closes.ack (h : pkt.Closes) (tcp : pkt.protocol = 6) : pkt.ack := by
  rcases h with ⟨_, ack⟩ | udp
  · exact ack
  · rw [tcp] at udp
    contradiction

/-- The number under which a text of `ipProtoNums` stands. -/
def Proto.number : Proto → UInt8
  | .tcp => 6
  | .udp => 17

theorem number_of_ipProtoNums {number : UInt8} {proto : Proto}
    (h : ipProtoNums number = some proto) : number = proto.number := by
  rw [ipProtoNums] at h
  split at h
  · obtain rfl := Option.some.inj h
    assumption
  · split at h
    · obtain rfl := Option.some.inj h
      assumption
    · contradiction

theorem NoCollision.upTo {pkts front back : List Packet} {q : Packet} (h : NoCollision pkts)
    (split : pkts = front ++ q :: back) : NoCollision (front ++ [q]) := by
  refine h.subset fun s hs => ?_
  rw [split]
  simp only [List.mem_append, List.mem_cons, List.not_mem_nil, or_false] at hs ⊢
  tauto

/-- Without a collision the packet that stored the entry of `q` is of `q`'s flow. -/
theorem StoredBy.flow_eq {front start between : List Packet} {p q : Packet}
    (h : StoredBy front q.hash ts start p between) (clean : NoCollision (front ++ [q]))
    (monitored : q.Monitored) : p.flow = q.flow := by
  have hp : p ∈ front ++ [q] := by simp [h.split]
  exact clean p hp q (by simp) h.opens.monitored monitored h.hash

theorem StoredBy.waiting_flow {front start between : List Packet} {p q : Packet}
    (h : StoredBy front q.hash ts start p between) :
    ∀ s ∈ between, s.flow = q.flow → ¬ s.Closes := by
  intro s hs same
  exact h.waiting s hs (by rw [Packet.hash_eq, same, ← Packet.hash_eq])

/-- The report `r` that is made for `q` is measured from `p`, which came after `start` and
was followed by `between`. -/
structure Measures (start : List Packet) (p : Packet) (between : List Packet) (q : Packet)
    (r : Report) : Prop where
  opened : outcomeAfter start p = .inserted p.hash p.timestamp
  opens : p.Opens
  flow : p.flow = q.flow
  waiting : ∀ s ∈ between, s.flow = q.flow → ¬ s.Closes
  closes : q.Closes
  proto : ipProtoNums q.protocol = some r.proto
  printed : r = report r.proto q p.timestamp

/-- Each latency is measured from the packet that opened the flow to the first later
packet of the flow that closes it. -/
theorem exists_measures {front : List Packet} {q : Packet} {r : Report}
    (h : NoCollision (front ++ [q])) (hr : outcomeAfter front q = .reported r) :
    ∃ start p between, front = start ++ p :: between ∧ Measures start p between q r := by
  obtain ⟨_, e⟩ | ⟨_, _, e⟩ | ⟨_, _, e⟩ | ⟨proto, ts, hproto, present, closes, e⟩ | ⟨_, _, _, e⟩ :=
    calcLatency_cases q (tableAfter front SyncMap.empty) <;> rw [outcomeAfter, e] at hr
  case inr.inr.inr.inl =>
    obtain rfl := Outcome.reported.inj hr
    obtain ⟨start, p, between, stored⟩ := exists_storedBy present
    refine ⟨start, p, between, stored.split, ?_, stored.opens, stored.flow_eq h closes.monitored,
      stored.waiting_flow, closes, hproto, ?_⟩
    · rw [stored.opened, stored.hash, stored.time]
    · rw [stored.time]
      rfl
  all_goals contradiction

/-! ## Latencies of handshakes -/

def Packet.SynAck (pkt : Packet) : Prop := pkt.protocol = 6 ∧ pkt.syn ∧ pkt.ack

instance (pkt : Packet) : Decidable pkt.SynAck := inferInstanceAs (Decidable (_ ∧ _))

theorem Packet.SynAck.proto (h : pkt.SynAck) : ipProtoNums pkt.protocol = some .tcp := by
  rw [h.1]
  rfl

/-- TCP latencies are measured from a SYN to an ACK, and a SYN-ACK opens no flow. -/
structure MeasuredFromSyn (pkts : List Packet) : Prop where
  reports : ∀ front q back r, pkts = front ++ q :: back → outcomeAfter front q = .reported r →
    r.proto = .tcp →
      ∃ start p between, front = start ++ p :: between ∧ Measures start p between q r ∧
        p.syn ∧ ¬ p.ack ∧ q.ack
  synAck : ∀ front q back, pkts = front ++ q :: back → q.SynAck →
    ∀ k ts, outcomeAfter front q ≠ .inserted k ts

/-- Among the packets so far there is a SYN of `q`'s flow that no ACK of the flow has
answered yet. -/
def Awaited (front : List Packet) (q : Packet) : Prop :=
  ∃ start p between, front = start ++ p :: between ∧ p.flow = q.flow ∧ p.syn ∧ ¬ p.ack ∧
    ∀ s ∈ between, s.flow = q.flow → ¬ s.ack

/-- Every SYN-ACK is awaited. -/
def SynAcksAwaited (pkts : List Packet) : Prop :=
  ∀ front q back, pkts = front ++ q :: back → q.SynAck → Awaited front q

variable {pkts front : List Packet} {q : Packet}

/-- The flow of a SYN-ACK that is awaited is in the table. -/
theorem Awaited.present (h : NoCollision (front ++ [q])) (awaited : Awaited front q)
    (synAck : q.SynAck) : ∃ ts, (tableAfter front SyncMap.empty).get q.hash = some ts := by
  obtain ⟨start, p, between, rfl, flow, syn, noAck, unanswered⟩ := awaited
  have tcp : ∀ s : Packet, s.flow = q.flow → s.protocol = 6 := fun s same =>
    (congrArg FiveTuple.protocol same).trans synAck.1
  have hash : p.hash = q.hash := by rw [Packet.hash_eq, flow, ← Packet.hash_eq]
  obtain ⟨ts, stored⟩ := get_calcLatency_of_opens (tableAfter start SyncMap.empty)
    (.inl ⟨tcp p flow, syn⟩) fun closes => noAck (closes.ack (tcp p flow))
  rw [hash] at stored
  refine ⟨ts, ?_⟩
  rw [tableAfter_append, tableAfter_cons]
  refine get_tableAfter_of_not_closes stored ?_
  intro s hs same closes
  have hmem : s ∈ start ++ p :: between ++ [q] := by simp [hs]
  have sameFlow : s.flow = q.flow := h s hmem q (by simp) closes.monitored (.inl synAck.1) same
  exact unanswered s hs sameFlow (closes.ack (tcp s sameFlow))

/-- A SYN-ACK that opens no flow finds the entry of a SYN, and that SYN is not answered yet. -/
theorem MeasuredFromSyn.awaited (h : NoCollision pkts) (measured : MeasuredFromSyn pkts) :
    SynAcksAwaited pkts := by
  intro front q back split synAck
  cases hget : (tableAfter front SyncMap.empty).get q.hash with
  | none =>
      have inserted : outcomeAfter front q = .inserted q.hash q.timestamp := by
        rw [outcomeAfter, calcLatency_absent synAck.proto hget, if_pos (.inl synAck.2.1)]
      exact absurd inserted (measured.synAck front q back split synAck _ _)
  | some ts =>
      obtain ⟨start, p, between, stored⟩ := exists_storedBy hget
      have flow : p.flow = q.flow := stored.flow_eq (h.upTo split) (.inl synAck.1)
      have tcp : ∀ s : Packet, s.flow = q.flow → s.protocol = 6 := fun s same =>
        (congrArg FiveTuple.protocol same).trans synAck.1
      have syn := stored.opens.syn (tcp p flow)
      refine ⟨start, p, between, stored.split, flow, syn, fun ack => ?_, ?_⟩
      · refine measured.synAck start p (between ++ q :: back) ?_ ⟨tcp p flow, syn, ack⟩ _ _
          stored.opened
        rw [split, stored.split, List.append_assoc, List.cons_append]
      · intro s hs same ack
        exact stored.waiting_flow s hs same (.inl ⟨tcp s same, ack⟩)

/-- The flow of an awaited SYN-ACK is in the table, so the SYN-ACK opens nothing. -/
theorem SynAcksAwaited.not_inserted (h : NoCollision pkts) (awaited : SynAcksAwaited pkts) :
    ∀ front q back, pkts = front ++ q :: back → q.SynAck →
      ∀ k ts, outcomeAfter front q ≠ .inserted k ts := by
  intro front q back split synAck k ts inserted
  obtain ⟨t0, present⟩ := (awaited front q back split synAck).present (h.upTo split) synAck
  rw [outcomeAfter, calcLatency_present synAck.proto present, if_pos (.inl synAck.2.2)] at inserted
  contradiction

theorem SynAcksAwaited.measured (h : NoCollision pkts) (awaited : SynAcksAwaited pkts) :
    MeasuredFromSyn pkts where
  reports := by
    intro front q back r split hr tcpReport
    obtain ⟨start, p, between, hfront, measures⟩ := exists_measures (h.upTo split) hr
    have tcpQ : q.protocol = 6 := by
      have proto := measures.proto
      rw [tcpReport] at proto
      exact number_of_ipProtoNums proto
    have tcpP : p.protocol = 6 := (congrArg FiveTuple.protocol measures.flow).trans tcpQ
    have syn := measures.opens.syn tcpP
    refine ⟨start, p, between, hfront, measures, syn, fun ack => ?_, measures.closes.ack tcpQ⟩
    -- the packet that opened the flow would be a SYN-ACK that has been inserted
    refine awaited.not_inserted h start p (between ++ q :: back) ?_ ⟨tcpP, syn, ack⟩ _ _
      measures.opened
    rw [split, hfront, List.append_assoc, List.cons_append]
  synAck := awaited.not_inserted h

/-- TCP latencies are measured from SYNs if and only if every SYN-ACK of the sequence
answers a SYN. -/
theorem measuredFromSyn_iff (h : NoCollision pkts) : MeasuredFromSyn pkts ↔ SynAcksAwaited pkts :=
  ⟨MeasuredFromSyn.awaited h, SynAcksAwaited.measured h⟩

/-- The packets of one handshake, by the time at which they are seen. -/
def clientSyn : UInt64 → Packet := lanPacket (1, 40000) (2, 443) 6 true false

def serverSynAck : UInt64 → Packet := lanPacket (2, 443) (1, 40000) 6 true true

/-- The SYN is sent twice. -/
def repeatedSyn : List Packet := [clientSyn 1000, clientSyn 1500, serverSynAck 3000]

theorem repeatedSyn_measuredFromSyn_iff :
    NoCollision repeatedSyn ∧ (MeasuredFromSyn repeatedSyn ↔ SynAcksAwaited repeatedSyn) :=
  ⟨by decide +kernel, measuredFromSyn_iff (by decide +kernel)⟩

/-- The SYN-ACK is sent three times. -/
def repeatedSynAck : List Packet :=
  [clientSyn 1000, serverSynAck 3000, serverSynAck 3500, serverSynAck 4000]

/-- The second SYN-ACK opens the flow again, and the third is reported against it. -/
theorem repeatedSynAck_refutes_measuredFromSyn :
    ¬ ∀ pkts, NoCollision pkts → MeasuredFromSyn pkts := by
  intro claimed
  have measured := claimed repeatedSynAck (by decide +kernel)
  have opened : outcomeAfter [clientSyn 1000, serverSynAck 3000] (serverSynAck 3500) =
      .inserted (serverSynAck 3500).hash 3500 := by decide +kernel
  exact measured.synAck _ _ [serverSynAck 4000] rfl (by decide) _ _ opened

example : (reports (calcLatencies repeatedSynAck SyncMap.empty).1).map Report.times =
    [(1000, 3000), (3500, 4000)] := by decide +kernel

/-! ## Directions -/

def Packet.source (pkt : Packet) : Addr × UInt16 := (pkt.srcIP, pkt.srcPort)

def Packet.destination (pkt : Packet) : Addr × UInt16 := (pkt.dstIP, pkt.dstPort)

def Opposite (p q : Packet) : Prop := q.source = p.destination ∧ q.destination = p.source

instance (p q : Packet) : Decidable (Opposite p q) := inferInstanceAs (Decidable (_ ∧ _))

def SameDirection (p q : Packet) : Prop := q.source = p.source ∧ q.destination = p.destination

/-- Packets of one flow travel in the same direction or in opposite ones. -/
theorem direction_of_flow_eq {p q : Packet} (h : p.flow = q.flow) :
    SameDirection p q ∨ Opposite p q := by
  have ends : s(p.source, p.destination) = s(q.source, q.destination) :=
    congrArg FiveTuple.ends h
  rcases Sym2.eq_iff.mp ends with ⟨source, destination⟩ | ⟨source, destination⟩
  · exact .inl ⟨source.symm, destination.symm⟩
  · exact .inr ⟨destination.symm, source.symm⟩

/-- The ends that are printed. -/
def Report.Names (r : Report) (src dst : Addr × UInt16) : Prop :=
  r.src = src.1.unmap ∧ r.srcPort = src.2 ∧ r.dst = dst.1.unmap ∧ r.dstPort = dst.2

theorem report_names (proto : Proto) (pkt : Packet) (ts : UInt64) :
    (report proto pkt ts).Names pkt.destination pkt.source := ⟨rfl, rfl, rfl, rfl⟩

/-- A latency with the directions of its two packets. -/
structure Joins (start : List Packet) (p : Packet) (between : List Packet) (q : Packet)
    (r : Report) : Prop extends Measures start p between q r where
  /-- The other end has answered, and the end that opened the flow is printed as the source. -/
  answered : q.source ≠ p.source → Opposite p q ∧ r.Names p.source p.destination
  /-- The end that opened the flow has sent again, and is printed as the destination. -/
  repeated : q.source = p.source → SameDirection p q ∧ r.Names p.destination p.source
  /-- A datagram is joined to the next one of its flow. -/
  next : r.proto = .udp → ∀ s ∈ between, s.flow ≠ q.flow

theorem Measures.joins {start between : List Packet} {p q : Packet} {r : Report}
    (h : Measures start p between q r) : Joins start p between q r where
  toMeasures := h
  answered := by
    intro other
    rcases direction_of_flow_eq h.flow with same | opposite
    · exact absurd same.1 other
    · refine ⟨opposite, ?_⟩
      rw [h.printed, ← opposite.1, ← opposite.2]
      exact report_names r.proto q p.timestamp
  repeated := by
    intro again
    have same : SameDirection p q := by
      rcases direction_of_flow_eq h.flow with same | opposite
      · exact same
      · exact ⟨again, by rw [opposite.2, ← again, opposite.1]⟩
    refine ⟨same, ?_⟩
    rw [h.printed, ← same.1, ← same.2]
    exact report_names r.proto q p.timestamp
  next := by
    intro udp s hs same
    have proto := h.proto
    rw [udp] at proto
    have datagram : s.protocol = 17 :=
      (congrArg FiveTuple.protocol same).trans (number_of_ipProtoNums proto)
    exact h.waiting s hs same (.inr datagram)

/-- A latency joins the packet that opened the flow and the first later one that closes
it. That one need not travel in the opposite direction: either end may have sent it. -/
theorem reports_join (h : NoCollision pkts) :
    ∀ front q back r, pkts = front ++ q :: back → outcomeAfter front q = .reported r →
      ∃ start p between, front = start ++ p :: between ∧ Joins start p between q r := by
  intro front q back r split hr
  obtain ⟨start, p, between, hfront, measures⟩ := exists_measures (h.upTo split) hr
  exact ⟨start, p, between, hfront, measures.joins⟩

/-- A query and an answer to it, by the time at which they are seen. -/
def query : UInt64 → Packet := lanPacket (1, 50000) (3, 53) 17 false false

def answer : UInt64 → Packet := lanPacket (3, 53) (1, 50000) 17 false false

theorem answeredQuery_reports_join :
    ∃ start p between, [query 1500] = start ++ p :: between ∧
      Joins start p between (answer 2500) (report .udp (answer 2500) 1500) :=
  @reports_join [query 1500, answer 2500] (by decide +kernel) _ _ [] _ rfl (by decide +kernel)

/-- A query that is sent twice is reported as if the second were an answer to the first. -/
theorem repeatedQuery_refutes_opposite :
    ¬ ∀ pkts, NoCollision pkts → ∀ front q back r, pkts = front ++ q :: back →
      outcomeAfter front q = .reported r →
        ∃ start p between, front = start ++ p :: between ∧ Measures start p between q r ∧
          Opposite p q := by
  intro claimed
  obtain ⟨start, p, between, split, _, opposite⟩ :=
    claimed [query 1500, query 2500] (by decide +kernel) [query 1500] (query 2500) []
      (report .udp (query 2500) 1500) rfl (by decide +kernel)
  have first : p = query 1500 := by
    have member : p ∈ [query 1500] := by simp [split]
    exact List.mem_singleton.mp member
  rw [first] at opposite
  exact absurd opposite (by decide)

end Xcnf.Flow
