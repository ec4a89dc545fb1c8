import Xcnf.Lib.Transition
import Xcnf.Flow.Accept
import Xcnf.Flow.Consumer

/-!
# Capture on several CPUs

Each CPU runs `flat` on its own frames. An invocation reads the clock, and in a later
step appends its event to the one pipe; the clock never goes back. The consumer takes
the events in pipe order. Between the two steps another CPU may read a later time and
append first, so the pipe need not be in the order of the timestamps: a flow can be
opened by the later of two packets and closed by the earlier one, and the latency is
negative. `InOrder` is the condition that excludes it.
-/

namespace Xcnf.Flow

/-- The state of `n` CPUs, the pipe and the consumer. -/
structure Capture (n : Nat) where
  /-- The last time read. -/
  clock : UInt64
  /-- The stamped event that a CPU has not appended yet. -/
  cpus : Fin n → Option Record
  pipe : List Record
  table : FlowTable
  /-- The latencies printed, latest first. -/
  reports : List Report

namespace Capture

variable {n : Nat}

def start : Capture n where
  clock := 0
  cpus := fun _ => none
  pipe := []
  table := SyncMap.empty
  reports := []

inductive Action (n : Nat) where
  /-- `flat` runs on a frame and, if it makes a record, reads the clock. -/
  | capture (cpu : Fin n) (skb : SkBuff) (pulled : Int) (now : UInt64)
  /-- `bpf_ringbuf_output` is called, and returns `result`. -/
  | append (cpu : Fin n) (result : Int)
  /-- The consumer takes the first event of the pipe. -/
  | consume

def step (order : ByteOrder) (s : Capture n) : Action n → Option (Capture n)
  | .capture cpu skb pulled now =>
    match s.cpus cpu, flatParse order pulled skb with
    | none, .ok (.send pkt) =>
      if s.clock ≤ now then
        some { s with
          clock := now
          cpus := Function.update s.cpus cpu (some (stamp order pkt now)) }
      else
        none
    | none, .ok (.exit _) => some s
    | _, _ => none
  | .append cpu result =>
    match s.cpus cpu with
    | none => none
    | some ev =>
      some { s with
        cpus := Function.update s.cpus cpu none
        pipe := if result < 0 then s.pipe else s.pipe ++ [ev] }
  | .consume =>
    match s.pipe with
    | [] => none
    | ev :: rest =>
      match receive (.ofList ev.bytes) s.table with
      | .error _ => none
      | .ok (outcome, table) =>
        some { s with
          pipe := rest
          table := table
          reports := (outcome.bind Outcome.report?).toList ++ s.reports }

/-- What a step can do. -/
inductive Step (order : ByteOrder) (s : Capture n) : Action n → Capture n → Prop where
  | stamp {cpu skb pulled now pkt} (free : s.cpus cpu = none) (later : s.clock ≤ now) :
      Step order s (.capture cpu skb pulled now)
        { s with
          clock := now
          cpus := Function.update s.cpus cpu (some (Flow.stamp order pkt now)) }
  | pass {cpu skb pulled now} : Step order s (.capture cpu skb pulled now) s
  | append {cpu result ev} (pending : s.cpus cpu = some ev) (stored : 0 ≤ result) :
      Step order s (.append cpu result)
        { s with cpus := Function.update s.cpus cpu none, pipe := s.pipe ++ [ev] }
  | drop {cpu result ev} (pending : s.cpus cpu = some ev) :
      Step order s (.append cpu result) { s with cpus := Function.update s.cpus cpu none }
  | consume {ev rest} (front : s.pipe = ev :: rest) :
      Step order s .consume
        { s with
          pipe := rest
          table := (calcLatency (Packet.ofRecord ev) s.table).2
          reports := (calcLatency (Packet.ofRecord ev) s.table).1.report?.toList ++ s.reports }

theorem step_sound {order : ByteOrder} {s t : Capture n} {a : Action n}
    (h : step order s a = some t) : Step order s a t := by
  cases a with
  | capture cpu skb pulled now =>
      simp only [step] at h
      split at h
      next pkt free _ =>
          split at h
          next later => exact Option.some.inj h ▸ .stamp free later
          next => contradiction
      next => exact Option.some.inj h ▸ .pass
      next => contradiction
  | append cpu result =>
      simp only [step] at h
      split at h
      next => contradiction
      next ev pending =>
          by_cases lost : result < 0
          · rw [if_pos lost] at h
            exact Option.some.inj h ▸ .drop pending
          · rw [if_neg lost] at h
            exact Option.some.inj h ▸ .append pending (Int.not_lt.mp lost)
  | consume =>
      simp only [step] at h
      split at h
      next => contradiction
      next ev rest front =>
          rw [receive_decoded s.table (unmarshalBinary_record (GoSlice.ofList_startsWith ev))] at h
          exact Option.some.inj h ▸ .consume front

/-! ## Events out of order -/

/-- `late` was stamped before `ev`, and can close the flow that `ev` opens in front of it. -/
def Overtakes (ev late : Record) : Prop :=
  (Packet.ofRecord ev).hash = (Packet.ofRecord late).hash ∧
    (Packet.ofRecord ev).Opens ∧ (Packet.ofRecord late).Closes ∧
    (Packet.ofRecord late).timestamp < (Packet.ofRecord ev).timestamp

instance (ev late : Record) : Decidable (Overtakes ev late) := inferInstanceAs (Decidable (_ ∧ _))

/-- The timestamps are read as they were written, and an event that opens a flow is not
appended while another CPU has an earlier one pending that closes it. -/
def InOrder (order : ByteOrder) (s : Capture n) : Action n → Prop
  | .append cpu result =>
    order = .little ∧
      (0 ≤ result → ∀ ev ∈ s.cpus cpu, ∀ other ≠ cpu, ∀ late ∈ s.cpus other, ¬ Overtakes ev late)
  | _ => order = .little

instance (order : ByteOrder) (s : Capture n) (a : Action n) : Decidable (InOrder order s a) :=
  match a with
  | .append cpu result =>
      inferInstanceAs (Decidable (order = .little ∧
        (0 ≤ result →
          ∀ ev ∈ s.cpus cpu, ∀ other ≠ cpu, ∀ late ∈ s.cpus other, ¬ Overtakes ev late)))
  | .capture _ _ _ _ | .consume => inferInstanceAs (Decidable (order = .little))

/-- The event is in the pipe or pending on a CPU. -/
def Waiting (s : Capture n) (ev : Record) : Prop := ev ∈ s.pipe ∨ ∃ cpu, s.cpus cpu = some ev

/-- No latency can become negative. -/
structure Ordered (s : Capture n) : Prop where
  stamped : ∀ ev, s.Waiting ev → (Packet.ofRecord ev).timestamp ≤ s.clock
  opened : ∀ k t0, s.table.get k = some t0 → t0 ≤ s.clock
  pipe : s.pipe.Pairwise fun ev late => ¬ Overtakes ev late
  pending : ∀ ev ∈ s.pipe, ∀ cpu late, s.cpus cpu = some late → ¬ Overtakes ev late
  table : ∀ k t0, s.table.get k = some t0 → ∀ late, s.Waiting late →
    (Packet.ofRecord late).hash = k → (Packet.ofRecord late).Closes →
      t0 ≤ (Packet.ofRecord late).timestamp
  reports : ∀ r ∈ s.reports, r.opened ≤ r.closed

theorem Ordered.start : Ordered (start : Capture n) where
  stamped := by
    rintro ev (h | ⟨cpu, h⟩) <;> contradiction
  opened := by
    intro k t0 h
    rw [Capture.start, FlowTable.get_empty] at h
    contradiction
  pipe := .nil
  pending := fun ev h => by contradiction
  table := by
    intro k t0 h
    rw [Capture.start, FlowTable.get_empty] at h
    contradiction
  reports := fun r h => by contradiction

/-- What a CPU stamps, the consumer reads. -/
theorem timestamp_stamp (pkt : Record) (now : UInt64) :
    (Packet.ofRecord (stamp .little pkt now)).timestamp = now := by
  have bytes : (stamp .little pkt now).sub 40 8 = Region.ofWord64 .little now := by
    rw [Region.sub_eq_iff]
    simp [stamp]
  rw [Packet.ofRecord, bytes, Region.toWord64_ofWord64]

variable {s : Capture n}

/-- What a CPU holds after one of them, perhaps another, has taken or lost an event. -/
theorem cpus_update {cpus : Fin n → Option Record} {cpu cpu' : Fin n} {held : Option Record}
    {ev : Record} (h : Function.update cpus cpu held cpu' = some ev) :
    cpu' = cpu ∧ held = some ev ∨ cpu' ≠ cpu ∧ cpus cpu' = some ev := by
  by_cases hcpu : cpu' = cpu
  · rw [hcpu, Function.update_self] at h
    exact .inl ⟨hcpu, h⟩
  · rw [Function.update_of_ne hcpu] at h
    exact .inr ⟨hcpu, h⟩

/-- A new event is the latest of all. -/
theorem Ordered.stamp (inv : Ordered s) (cpu : Fin n) {now : UInt64} (later : s.clock ≤ now)
    (pkt : Record) :
    Ordered
      { s with
        clock := now
        cpus := Function.update s.cpus cpu (some (Flow.stamp .little pkt now)) } := by
  have waiting {ev : Record}
      (h : Waiting { s with
        clock := now
        cpus := Function.update s.cpus cpu (some (Flow.stamp .little pkt now)) } ev) :
      s.Waiting ev ∨ (Packet.ofRecord ev).timestamp = now := by
    rcases h with h | ⟨cpu', h⟩
    · exact .inl (.inl h)
    · rcases cpus_update h with ⟨_, held⟩ | ⟨_, held⟩
      · exact .inr (Option.some.inj held ▸ timestamp_stamp pkt now)
      · exact .inl (.inr ⟨cpu', held⟩)
  refine ⟨?_, ?_, inv.pipe, ?_, ?_, inv.reports⟩
  · intro ev h
    rcases waiting h with old | new
    · exact UInt64.le_trans (inv.stamped ev old) later
    · exact UInt64.le_of_eq new
  · intro k t0 h
    exact UInt64.le_trans (inv.opened k t0 h) later
  · intro ev hev cpu' late h
    rcases cpus_update h with ⟨_, held⟩ | ⟨_, held⟩
    · rintro ⟨_, _, _, earlier⟩
      rw [← Option.some.inj held, timestamp_stamp] at earlier
      exact UInt64.not_lt.mpr (UInt64.le_trans (inv.stamped ev (.inl hev)) later) earlier
    · exact inv.pending ev hev cpu' late held
  · intro k t0 hopen late h hk closes
    rcases waiting h with old | new
    · exact inv.table k t0 hopen late old hk closes
    · rw [new]
      exact UInt64.le_trans (inv.opened k t0 hopen) later

/-- A CPU is done with its event. -/
theorem Ordered.drop (inv : Ordered s) (cpu : Fin n) :
    Ordered { s with cpus := Function.update s.cpus cpu none } := by
  have pending {cpu' : Fin n} {ev : Record} (h : Function.update s.cpus cpu none cpu' = some ev) :
      s.cpus cpu' = some ev := by
    rcases cpus_update h with ⟨_, held⟩ | ⟨_, held⟩
    · contradiction
    · exact held
  have waiting {ev : Record} (h : Waiting { s with cpus := Function.update s.cpus cpu none } ev) :
      s.Waiting ev :=
    h.imp id fun ⟨cpu', h⟩ => ⟨cpu', pending h⟩
  exact
    { inv with
      stamped := fun ev h => inv.stamped ev (waiting h)
      pending := fun ev hev cpu' late h => inv.pending ev hev cpu' late (pending h)
      table := fun k t0 hopen late h => inv.table k t0 hopen late (waiting h) }

/-- An event that overtakes no other joins the pipe. -/
theorem Ordered.append (inv : Ordered s) {cpu : Fin n} {ev : Record} (here : s.cpus cpu = some ev)
    (order : ∀ other ≠ cpu, ∀ late ∈ s.cpus other, ¬ Overtakes ev late) :
    Ordered { s with cpus := Function.update s.cpus cpu none, pipe := s.pipe ++ [ev] } := by
  have dropped := inv.drop cpu
  have member {e : Record} (h : e ∈ s.pipe ++ [ev]) : e ∈ s.pipe ∨ e = ev := by simpa using h
  have waiting {e : Record}
      (h : Waiting
        { s with cpus := Function.update s.cpus cpu none, pipe := s.pipe ++ [ev] } e) :
      s.Waiting e := by
    rcases h with h | ⟨cpu', h⟩
    · rcases member h with h | rfl
      · exact .inl h
      · exact .inr ⟨cpu, here⟩
    · rcases cpus_update h with ⟨_, held⟩ | ⟨_, held⟩
      · contradiction
      · exact .inr ⟨cpu', held⟩
  refine ⟨fun e h => inv.stamped e (waiting h), inv.opened, ?_, ?_,
    fun k t0 hopen late h => inv.table k t0 hopen late (waiting h), inv.reports⟩
  · refine List.pairwise_append.mpr ⟨inv.pipe, List.pairwise_singleton _ _, ?_⟩
    intro e he late hlate
    rw [List.mem_singleton.mp hlate]
    exact inv.pending e he cpu ev here
  · intro e he other late h
    rcases member he with he | rfl
    · exact dropped.pending e he other late h
    · rcases cpus_update h with ⟨_, held⟩ | ⟨hcpu, held⟩
      · contradiction
      · exact order other hcpu late held

/-- The consumer takes the first event. -/
theorem Ordered.consume (inv : Ordered s) {ev : Record} {rest : List Record}
    (front : s.pipe = ev :: rest) :
    Ordered
      { s with
        pipe := rest
        table := (calcLatency (Packet.ofRecord ev) s.table).2
        reports :=
          (calcLatency (Packet.ofRecord ev) s.table).1.report?.toList ++ s.reports } := by
  have first : s.Waiting ev := .inl (front ▸ List.mem_cons_self)
  have behind {e : Record} (h : e ∈ rest) : e ∈ s.pipe := front ▸ List.mem_cons_of_mem ev h
  have sorted := front ▸ inv.pipe
  obtain ⟨after, sorted⟩ := List.pairwise_cons.mp sorted
  refine ⟨?_, ?_, sorted, fun e he => inv.pending e (behind he), ?_, ?_⟩
  · rintro e (h | h)
    · exact inv.stamped e (.inl (behind h))
    · exact inv.stamped e (.inr h)
  · intro k t0 h
    rcases get_of_calcLatency h with old | ⟨_, rfl, _⟩
    · exact inv.opened k t0 old
    · exact inv.stamped ev first
  · intro k t0 h late hlate hk closes
    have old : s.Waiting late := hlate.imp behind id
    rcases get_of_calcLatency h with hget | ⟨rfl, rfl, opens⟩
    · exact inv.table k t0 hget late old hk closes
    · have order : ¬ Overtakes ev late := by
        rcases hlate with hlate | ⟨cpu, hlate⟩
        · exact after late hlate
        · exact inv.pending ev (front ▸ List.mem_cons_self) cpu late hlate
      exact UInt64.not_lt.mp fun earlier => order ⟨hk.symm, opens, closes, earlier⟩
  · intro r hr
    rcases List.mem_append.mp hr with hr | hr
    · cases hout : (calcLatency (Packet.ofRecord ev) s.table).1 with
      | reported r' =>
          rw [hout] at hr
          obtain rfl := List.mem_singleton.mp hr
          obtain ⟨proto, ts, hget, closes, rfl⟩ := calcLatency_reported hout
          exact inv.table _ ts hget ev first rfl closes
      | unknownProtocol | inserted | ignored | kept =>
          rw [hout] at hr
          contradiction
    · exact inv.reports r hr

theorem Ordered.step {order : ByteOrder} {s t : Capture n} {a : Action n} (inv : Ordered s)
    (cond : InOrder order s a) (h : step order s a = some t) : Ordered t := by
  cases step_sound h with
  | stamp _ later =>
      obtain rfl : order = .little := cond
      exact inv.stamp _ later _
  | pass => exact inv
  | append pending stored => exact inv.append pending (cond.2 stored _ pending)
  | drop => exact inv.drop _
  | consume front => exact inv.consume front

/-- In every run that is in order, on any number of CPUs, every latency printed is from
an earlier time to a later one. -/
theorem reports_nonnegative {order : ByteOrder} {as : List (Action n)} {t : Capture n}
    (cond : Transition.Along (step order) (InOrder order) start as)
    (run : Transition.run (step order) start as = some t) :
    ∀ r ∈ t.reports, 0 ≤ r.latency := by
  intro r hr
  have inv := Transition.run_invariant_along (fun _ _ _ => Ordered.step) Ordered.start cond run
  have le : r.opened.toNat ≤ r.closed.toNat := UInt64.le_iff_toNat_le.mp (inv.reports r hr)
  rw [Report.latency]
  omega

/-! ## Two datagrams of one flow on two CPUs -/

/-- The second CPU starts when the first is done. -/
def oneAfterTheOther : List (Action 2) :=
  [.capture 0 datagram4 0 1000, .append 0 0, .capture 1 datagram4 0 2000, .append 1 0,
    .consume, .consume]

theorem oneAfterTheOther_nonnegative :
    let t := (Transition.run (step .little) start oneAfterTheOther).get (by decide +kernel)
    ∀ r ∈ t.reports, 0 ≤ r.latency :=
  reports_nonnegative (by decide +kernel) (Option.some_get _).symm

/-- The second CPU appends first. -/
def overtaken : List (Action 2) :=
  [.capture 0 datagram4 0 1000, .capture 1 datagram4 0 2000, .append 1 0, .append 0 0,
    .consume, .consume]

/-- A latency of minus one microsecond. -/
theorem overtaken_refutes_nonnegative :
    ¬ ∀ (n : Nat) (as : List (Action n)) (t : Capture n),
      Transition.run (step .little) start as = some t → ∀ r ∈ t.reports, 0 ≤ r.latency := by
  intro claimed
  have nonnegative := claimed 2 overtaken
    ((Transition.run (step .little) start overtaken).get (by decide +kernel))
    (Option.some_get _).symm
  exact absurd nonnegative (by decide +kernel)

end Capture

end Xcnf.Flow
