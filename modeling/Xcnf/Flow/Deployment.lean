import Xcnf.Flow.Accept
import Xcnf.Flow.Serving
import Mathlib.Logic.Function.Basic

/-!
# From the wire to the latencies

All of the tool at work: `flat` on every CPU, the ring buffer that the CPUs share, and the
goroutines of `Run` with the flow table. A run is any sequence of their steps.

Every latency printed is then measured between two frames that `flat` has accepted
(`Deployment.run_measured`). What is printed is what `CalcLatency` prints for the events of
the ring buffer one after the other (`Deployment.run_computes`), and nothing keeps an event
from being handled as long as `Run` goes on (`Deployment.run_drains`).
-/

namespace Xcnf.Flow

/-- An event, with the frame that it was made for and the time that was read. -/
structure Stamped (order : ByteOrder) where
  skb : SkBuff
  now : UInt64
  record : Record
  accepted : Accepts skb
  emitted : record = ipv4Event order skb.data now

namespace Stamped

variable {order : ByteOrder}

def packet (e : Stamped order) : Packet := .ofRecord e.record

def sample (e : Stamped order) : Sample := .ofList e.record.bytes

theorem unmarshalBinary_sample (e : Stamped order) :
    unmarshalBinary e.sample = .ok (some e.packet) :=
  unmarshalBinary_record (GoSlice.ofList_startsWith e.record)

theorem timestamp_packet (e : Stamped order) : e.packet.timestamp = asLittle order e.now := by
  have bytes : e.record.sub 40 8 = Region.ofWord64 order e.now := by
    rw [Region.sub_eq_iff, e.emitted]
    simp [ipv4Event, stamp]
  rw [packet, Packet.ofRecord, bytes, toWord64_ofWord64]

theorem of_flatParse {pulled : Int} {skb : SkBuff} {pkt : Record}
    (h : flatParse order pulled skb = .ok (.send pkt)) :
    Accepts skb ∧ pkt = ipv4Record order skb.data := by
  rw [flatParse_eq] at h
  split at h
  next accepted => exact ⟨accepted.2, (Verdict.send.inj (Except.ok.inj h)).symm⟩
  next => simp at h

/-- What `flat` has in hand after it has read the clock, if it has not returned before. -/
def ofFrame (order : ByteOrder) (pulled : Int) (skb : SkBuff) (now : UInt64) :
    Access (Option (Stamped order)) :=
  match h : flatParse order pulled skb with
  | .ok (.send pkt) =>
    .ok (some ⟨skb, now, stamp order pkt now, (of_flatParse h).1, by
      rw [(of_flatParse h).2, ipv4Event]⟩)
  | .ok (.exit _) => .ok none
  | .error fault => .error fault

end Stamped

/-- The state of the tool on `n` CPUs. -/
structure Deployment (order : ByteOrder) (n : Nat) where
  /-- The last time read. -/
  clock : UInt64
  /-- The event that a CPU has not appended yet. -/
  cpus : Fin n → Option (Stamped order)
  ring : List (Stamped order)
  pipeline : Pipeline
  /-- Every event that was ever appended, in order. -/
  appended : List (Stamped order)

namespace Deployment

variable {order : ByteOrder} {n : Nat}

def start : Deployment order n where
  clock := 0
  cpus := fun _ => none
  ring := []
  pipeline := Pipeline.start
  appended := []

inductive Action (n : Nat) where
  /-- `flat` runs on a frame and, if it makes a record, reads the clock. -/
  | capture (cpu : Fin n) (skb : SkBuff) (pulled : Int) (now : UInt64)
  /-- `bpf_ringbuf_output` is called, and returns `result`. -/
  | append (cpu : Fin n) (result : Int)
  /-- `reader.Read` returns the first record of the ring buffer. -/
  | read
  /-- Any other step of `Run` and its goroutines. -/
  | user (a : Pipeline.Action)

def step (s : Deployment order n) : Action n → Option (Deployment order n)
  | .capture cpu skb pulled now =>
    match s.cpus cpu, Stamped.ofFrame order pulled skb now with
    | none, .ok (some e) =>
      if s.clock ≤ now then
        some { s with clock := now, cpus := Function.update s.cpus cpu (some e) }
      else
        none
    | none, .ok none => some s
    | _, _ => none
  | .append cpu result =>
    match s.cpus cpu with
    | none => none
    | some e =>
      if result < 0 then
        some { s with cpus := Function.update s.cpus cpu none }
      else
        some { s with
          cpus := Function.update s.cpus cpu none
          ring := s.ring ++ [e]
          appended := s.appended ++ [e] }
  | .read =>
    match s.ring with
    | [] => none
    | e :: ring =>
      match s.pipeline.step unmarshalBinary (.read e.sample) with
      | none => none
      | some pipeline => some { s with ring := ring, pipeline := pipeline }
  | .user a =>
    match a, s.pipeline.step unmarshalBinary a with
    | .read _, _ | _, none => none
    | _, some pipeline => some { s with pipeline := pipeline }

/-- What a step can do. -/
inductive Step (s : Deployment order n) : Action n → Deployment order n → Prop where
  | stamp {cpu skb pulled now e} (later : s.clock ≤ now) :
      Step s (.capture cpu skb pulled now)
        { s with clock := now, cpus := Function.update s.cpus cpu (some e) }
  | pass {cpu skb pulled now} : Step s (.capture cpu skb pulled now) s
  | append {cpu result e} (pending : s.cpus cpu = some e) :
      Step s (.append cpu result)
        { s with
          cpus := Function.update s.cpus cpu none
          ring := s.ring ++ [e]
          appended := s.appended ++ [e] }
  | drop {cpu result} :
      Step s (.append cpu result) { s with cpus := Function.update s.cpus cpu none }
  | read {e ring pipeline} (front : s.ring = e :: ring)
      (taken : s.pipeline.step unmarshalBinary (.read e.sample) = some pipeline) :
      Step s .read { s with ring := ring, pipeline := pipeline }
  | user {a pipeline} (other : ∀ sample, a ≠ .read sample)
      (next : s.pipeline.step unmarshalBinary a = some pipeline) :
      Step s (.user a) { s with pipeline := pipeline }

variable {s t : Deployment order n}

theorem step_sound {a : Action n} (h : step s a = some t) : Step s a t := by
  cases a with
  | capture cpu skb pulled now =>
      simp only [step] at h
      split at h
      next e _ _ =>
          split at h
          next later => exact Option.some.inj h ▸ .stamp later
          next => contradiction
      next => exact Option.some.inj h ▸ .pass
      next => contradiction
  | append cpu result =>
      simp only [step] at h
      split at h
      next => contradiction
      next e pending =>
          split at h
          next => exact Option.some.inj h ▸ .drop
          next => exact Option.some.inj h ▸ .append pending
  | read =>
      simp only [step] at h
      split at h
      next => contradiction
      next e ring front =>
          split at h
          next => contradiction
          next pipeline taken => exact Option.some.inj h ▸ .read front taken
  | user a =>
      simp only [step] at h
      split at h
      next => contradiction
      next => contradiction
      next pipeline other next =>
          exact Option.some.inj h ▸ .user (fun sample same => other sample same) next

/-! ## Every latency is measured between two frames -/

/-- What is appended is read in the same order, and then handed on and handled. `Run` does
not crash. -/
structure Consistent (s : Deployment order n) : Prop where
  fifo : s.pipeline.read ++ s.ring.map Stamped.sample = s.appended.map Stamped.sample
  conserves : s.pipeline.Conserves
  alive : s.pipeline.main.alive = true
  waits : s.pipeline.Waits

theorem Consistent.start : Consistent (start : Deployment order n) := ⟨rfl, rfl, rfl, .start⟩

/-- The samples that have been handed to the decoder are those of the first events. -/
theorem Consistent.handed (inv : Consistent s) :
    ∃ handed, handed <+: s.appended ∧ s.pipeline.handed = handed.map Stamped.sample := by
  have fifo := inv.fifo
  rw [inv.conserves, List.append_assoc] at fifo
  obtain ⟨handed, rest, split, same, _⟩ := List.map_eq_append_iff.mp fifo.symm
  exact ⟨handed, ⟨rest, split.symm⟩, same.symm⟩

/-- The sample that is handed on next is an event's. -/
theorem Consistent.next (inv : Consistent s) {sample : Sample}
    (at_ : s.pipeline.main = .handling sample) : ∃ e ∈ s.appended, e.sample = sample := by
  have conserves := inv.conserves
  rw [Pipeline.Conserves, at_] at conserves
  have mem : sample ∈ s.pipeline.read ++ s.ring.map Stamped.sample := by
    simp [conserves, Pipeline.Main.pending]
  rw [inv.fifo] at mem
  exact List.mem_map.mp mem

theorem Consistent.user (inv : Consistent s) {a : Pipeline.Action} {pipeline : Pipeline}
    (other : ∀ sample, a ≠ .read sample)
    (next : s.pipeline.step unmarshalBinary a = some pipeline) :
    Consistent { s with pipeline := pipeline } := by
  have conserves := inv.conserves.step next
  have waits := inv.waits.step next
  cases Pipeline.step_sound next with
  | read => exact absurd rfl (other _)
  | readError | cancel | calculate | fire | tick =>
      exact ⟨inv.fifo, conserves, inv.alive, waits⟩
  | receive | done | returns | reject | call => exact ⟨inv.fifo, conserves, rfl, waits⟩
  | crash at_ bad =>
      obtain ⟨e, _, rfl⟩ := inv.next at_
      rw [e.unmarshalBinary_sample] at bad
      contradiction

theorem Consistent.read (inv : Consistent s) {e : Stamped order} {ring : List (Stamped order)}
    {pipeline : Pipeline} (front : s.ring = e :: ring)
    (taken : s.pipeline.step unmarshalBinary (.read e.sample) = some pipeline) :
    Consistent { s with ring := ring, pipeline := pipeline } := by
  have conserves := inv.conserves.step taken
  have waits := inv.waits.step taken
  have fifo := inv.fifo
  cases Pipeline.step_sound taken with
  | read =>
      refine ⟨?_, conserves, inv.alive, waits⟩
      rw [front, List.map_cons] at fifo
      exact (List.append_assoc ..).trans fifo

theorem Consistent.append (inv : Consistent s) (cpu : Fin n) (e : Stamped order) :
    Consistent
      { s with
        cpus := Function.update s.cpus cpu none
        ring := s.ring ++ [e]
        appended := s.appended ++ [e] } := by
  refine ⟨?_, inv.conserves, inv.alive, inv.waits⟩
  rw [List.map_append, List.map_append, ← inv.fifo, List.append_assoc]

theorem Consistent.step {a : Action n} (inv : Consistent s) (h : step s a = some t) :
    Consistent t := by
  cases step_sound h with
  | stamp | drop | pass => exact ⟨inv.fifo, inv.conserves, inv.alive, inv.waits⟩
  | append => exact inv.append _ _
  | read front taken => exact inv.read front taken
  | user other next => exact inv.user other next

theorem run_consistent {as : List (Action n)} (run : Transition.run step start as = some t) :
    Consistent t := Transition.run_invariant (fun _ _ _ => Consistent.step) Consistent.start run

def Action.tick? : Action n → Option Tick
  | .user a => a.tick?
  | _ => none

/-- The steps of `Prune`. -/
def ticks (as : List (Action n)) : List Tick := as.filterMap Action.tick?

theorem ticks_snoc (as : List (Action n)) (a : Action n) :
    ticks (as ++ [a]) = ticks as ++ a.tick?.toList :=
  Transition.filterMap_snoc Action.tick? as a

/-- The goroutines of `Run` have come to where they are by these actions. -/
def Runs (done : List (Action n)) (s : Deployment order n) : Prop :=
  ∃ as, Transition.run (Pipeline.step unmarshalBinary) Pipeline.start as = some s.pipeline ∧
    Pipeline.ticks as = ticks done

theorem Runs.step {done : List (Action n)} {a : Action n} (inv : Runs done s)
    (h : step s a = some t) : Runs (done ++ [a]) t := by
  obtain ⟨as, run, ticked⟩ := inv
  cases step_sound h with
  | stamp | pass | append | drop =>
      refine ⟨as, run, ?_⟩
      rw [ticks_snoc, ticked]
      exact (List.append_nil _).symm
  | @read e _ _ _ taken =>
      refine ⟨as ++ [.read e.sample], Transition.run_snoc run taken, ?_⟩
      rw [ticks_snoc, Pipeline.ticks_snoc, ticked]
      rfl
  | @user a _ _ next =>
      refine ⟨as ++ [a], Transition.run_snoc run next, ?_⟩
      rw [ticks_snoc, Pipeline.ticks_snoc, ticked]
      rfl

theorem run_runs {as : List (Action n)} (run : Transition.run step start as = some t) :
    Runs as t := by
  have first : Runs [] (Deployment.start : Deployment order n) := ⟨[], rfl, rfl⟩
  exact Transition.run_invariant_history (fun _ _ _ _ => Runs.step) first run

theorem packets_samples (events : List (Stamped order)) :
    Pipeline.packets unmarshalBinary (events.map Stamped.sample) = events.map Stamped.packet := by
  have decoded (e : Stamped order) :
      Pipeline.packet? unmarshalBinary e.sample = some e.packet := by
    rw [Pipeline.packet?, e.unmarshalBinary_sample]
  rw [Pipeline.packets, List.filterMap_map, ← List.filterMap_eq_map]
  exact congrArg (events.filterMap ·) (funext decoded)

/-- The latency is from the frame of the one event to the frame of the other. -/
structure Measures (a b : Stamped order) (r : Report) : Prop where
  flow : a.packet.hash = b.packet.hash
  opens : a.packet.Opens
  closes : b.packet.Closes
  opened : r.opened = asLittle order a.now
  closed : r.closed = asLittle order b.now

theorem measures_of_measured {events : List (Stamped order)} {r : Report} {i j : Nat}
    (h : Measured (events.map Stamped.packet) r i j) :
    ∃ a b, events[i]? = some a ∧ events[j]? = some b ∧ Measures a b r := by
  obtain ⟨q, proto, ts, at_, closes, _, ⟨p, at', flow, opens, opened⟩, rfl⟩ := h
  rw [List.getElem?_map] at at_ at'
  obtain ⟨b, hb, rfl⟩ := Option.map_eq_some_iff.mp at_
  obtain ⟨a, ha, rfl⟩ := Option.map_eq_some_iff.mp at'
  refine ⟨a, b, ha, hb, flow, opens, closes, ?_, b.timestamp_packet⟩
  exact opened.symm.trans a.timestamp_packet

/-- In every run, on any number of CPUs and whatever `Prune` and cancellation do, each latency
printed is between two events of the ring buffer with one hash, the earlier of which opens the
flow and the later of which closes it, at the times that `flat` read for their frames. No
event is used twice. -/
theorem run_measured {as : List (Action n)} {t : Deployment order n}
    (run : Transition.run step start as = some t) :
    ∃ pairs, Matching
      (fun r i j => ∃ a b, t.appended[i]? = some a ∧ t.appended[j]? = some b ∧ Measures a b r)
      t.pipeline.shared.reports pairs := by
  obtain ⟨handed, ⟨rest, split⟩, same⟩ := (run_consistent run).handed
  obtain ⟨_, runs, _⟩ := run_runs run
  obtain ⟨_, worked, received, _⟩ := Pipeline.run_works runs
  obtain ⟨origin, pairs, traced⟩ := System.run_traced worked
  rw [received, same, packets_samples] at traced
  refine ⟨pairs, traced.matching.mono fun r i j measured => ?_⟩
  obtain ⟨a, b, ha, hb, measures⟩ := measures_of_measured measured
  rw [← split]
  exact ⟨a, b, getElem?_append_some ha rest, getElem?_append_some hb rest, measures⟩

/-- A datagram and its copy on another CPU, both handled. -/
def bothHandled : List (Action 4) :=
  [.capture 0 datagram4 0 1000, .append 0 0, .capture 1 datagram4 0 2000, .read, .append 1 0,
    .user .receive, .user .unmarshal, .read, .user .calculate, .user .calculate, .user .receive,
    .user .unmarshal, .user .calculate, .user .calculate, .user .calculate]

theorem bothHandled_measured :
    let t := (Transition.run (@step .little 4) start bothHandled).get (by decide +kernel)
    ∃ pairs, Matching
      (fun r i j => ∃ a b, t.appended[i]? = some a ∧ t.appended[j]? = some b ∧ Measures a b r)
      t.pipeline.shared.reports pairs :=
  run_measured (Option.some_get _).symm

example :
    ((Transition.run (@step .little 4) start bothHandled).map fun t =>
      t.pipeline.shared.reports.map fun r => (r.opened, r.closed)) = some [(1000, 2000)] := by
  decide +kernel

/-! ## What is printed is what `CalcLatency` prints -/

/-- The table and the latencies printed are those of whole calls of `CalcLatency` for the
events that have been handed on, which are the first that were appended, and of the same steps
of `Prune`. -/
def Computes (as : List (Action n)) (t : Deployment order n) : Prop :=
  ∃ handed bs u, handed <+: t.appended ∧ t.pipeline.handed = handed.map Stamped.sample ∧
    Transition.run Uninterrupted.step Uninterrupted.start bs = some u ∧
    Uninterrupted.called bs = handed.map Stamped.packet ∧
    Uninterrupted.ticks bs = ticks as ∧ t.pipeline.shared.Agrees u

/-- This is so in every run, whenever `CalcLatency` is not at work. -/
theorem run_computes {as : List (Action n)} {t : Deployment order n}
    (run : Transition.run step start as = some t)
    (between : t.pipeline.main ≠ .calculating) : Computes as t := by
  obtain ⟨handed, first, same⟩ := (run_consistent run).handed
  obtain ⟨_, runs, ticked⟩ := run_runs run
  obtain ⟨bs, u, run', called, ticked', agrees⟩ := Pipeline.run_serves runs between
  rw [same, packets_samples] at called
  exact ⟨handed, bs, u, first, same, run', called, ticked'.trans ticked, agrees⟩

instance (m : Main) : Decidable (m = .calculating) :=
  match m with
  | .calculating => .isTrue rfl
  | .selecting | .handling _ | .returned | .crashed _ => .isFalse fun h => by contradiction

/-- The second call returns while a tick goes on. -/
def bothReturned : List (Action 4) :=
  bothHandled ++
    [.user .fire, .user (.tick (.clock 3000)), .user .calculate, .user (.tick .rangeEnd)]

theorem bothReturned_computes :
    Computes bothReturned
      ((Transition.run (@step .little 4) start bothReturned).get (by decide +kernel)) :=
  run_computes (Option.some_get _).symm (by decide +kernel)

/-! ## Every event can be handled -/

theorem step_user {a : Pipeline.Action} {pipeline : Pipeline} (other : ∀ sample, a ≠ .read sample)
    (next : s.pipeline.step unmarshalBinary a = some pipeline) :
    step s (.user a) = some { s with pipeline := pipeline } := by
  cases a with
  | read sample => exact absurd rfl (other sample)
  | readError | receive | unmarshal | calculate | fire | tick | cancel | done =>
      simp only [step, next]

/-- A run in which nothing is appended leads from the one state to the other. -/
def Reaches (s t : Deployment order n) : Prop :=
  t.appended = s.appended ∧ ∃ as, Transition.run step s as = some t

namespace Reaches

theorem trans {u : Deployment order n} (h : Reaches s t) (h' : Reaches t u) : Reaches s u := by
  obtain ⟨same, as, run⟩ := h
  obtain ⟨same', bs, run'⟩ := h'
  refine ⟨same'.trans same, as ++ bs, ?_⟩
  rw [Transition.run_append, run]
  exact run'

theorem single {a : Action n} (same : t.appended = s.appended) (h : step s a = some t) :
    Reaches s t := ⟨same, [a], by rw [Transition.run_single, h]⟩

theorem user {a : Pipeline.Action} {pipeline : Pipeline} (other : ∀ sample, a ≠ .read sample)
    (next : s.pipeline.step unmarshalBinary a = some pipeline) :
    Reaches s { s with pipeline := pipeline } :=
  single rfl (step_user other next)

theorem consistent (h : Reaches s t) (inv : Consistent s) : Consistent t := by
  obtain ⟨_, as, run⟩ := h
  exact Transition.run_invariant (fun _ _ _ => Consistent.step) inv run

end Reaches

/-- A step of the main loop that takes nothing from another goroutine. -/
def Action.Own : Action n → Prop
  | .user .unmarshal | .user .calculate | .user .done => True
  | _ => False

/-- The main loop comes back to its `select` by at most `k` steps of its own, and nothing else
has happened to the events. -/
structure Settles (k : Nat) (s t : Deployment order n) : Prop where
  steps : ∃ as : List (Action n), as.length ≤ k ∧ (∀ a ∈ as, a.Own) ∧
    Transition.run step s as = some t
  selecting : t.pipeline.main = .selecting
  appended : t.appended = s.appended
  ring : t.ring = s.ring
  reader : t.pipeline.reader = s.pipeline.reader
  cancelled : t.pipeline.cancelled = s.pipeline.cancelled

namespace Settles

variable {k l : Nat}

theorem reaches (h : Settles k s t) : Reaches s t := by
  obtain ⟨as, _, _, run⟩ := h.steps
  exact ⟨h.appended, as, run⟩

theorem refl (at_ : s.pipeline.main = .selecting) : Settles 0 s s :=
  ⟨⟨[], Nat.le_refl 0, fun _ h => by contradiction, rfl⟩, at_, rfl, rfl, rfl, rfl⟩

theorem mono (h : Settles k s t) (le : k ≤ l) : Settles l s t := by
  obtain ⟨as, length, rest⟩ := h.steps
  exact { h with steps := ⟨as, length.trans le, rest⟩ }

/-- One step comes first. -/
theorem user {a : Pipeline.Action} {pipeline : Pipeline} (own : Action.Own (.user a : Action n))
    (next : s.pipeline.step unmarshalBinary a = some pipeline)
    (reader : pipeline.reader = s.pipeline.reader)
    (cancelled : pipeline.cancelled = s.pipeline.cancelled)
    (rest : Settles k { s with pipeline := pipeline } t) : Settles (k + 1) s t := by
  obtain ⟨as, length, all, run⟩ := rest.steps
  have other (sample : Sample) : a ≠ .read sample := by
    rintro rfl
    exact own
  refine ⟨⟨.user a :: as, Nat.succ_le_succ length, ?_, ?_⟩, rest.selecting, rest.appended,
    rest.ring, rest.reader.trans reader, rest.cancelled.trans cancelled⟩
  · exact List.forall_mem_cons.mpr ⟨own, all⟩
  · exact Transition.run_cons_some.mpr ⟨_, step_user other next, run⟩

end Settles

/-- How many steps `CalcLatency` may take at most. -/
def stepsLeft : Consumer → Nat
  | .idle => 0
  | .deleting _ _ => 1
  | .removing _ _ => 2
  | .got _ _ _ => 3

theorem stepsLeft_le (c : Consumer) : stepsLeft c ≤ 3 := by
  cases c <;> simp only [stepsLeft] <;> decide

theorem stepsLeft_consume {shared shared' : System} (h : shared.consume = some shared') :
    stepsLeft shared'.consumer < stepsLeft shared.consumer := by
  cases System.consume_sound h with
  | insert at_ | ignore at_ | report at_ | keep at_ | found at_ | missing at_ | remove at_ =>
      rw [at_, stepsLeft, stepsLeft]
      omega

theorem Settles.calculating (at_ : s.pipeline.main = .calculating) :
    ∃ t, Settles (stepsLeft s.pipeline.shared.consumer + 1) s t := by
  induction left : stepsLeft s.pipeline.shared.consumer using Nat.strong_induction_on
    generalizing s with
  | h k ih =>
      cases next : s.pipeline.shared.consume with
      | none =>
          let back : Pipeline := { s.pipeline with main := .selecting }
          have last : s.pipeline.step unmarshalBinary .calculate = some back := by
            simp only [Pipeline.step, at_, System.step, next, back]
          have settled := Settles.user (a := .calculate) trivial last rfl rfl (.refl rfl)
          exact ⟨_, settled.mono (by omega)⟩
      | some shared =>
          let moved : Pipeline := { s.pipeline with shared := shared }
          have first : s.pipeline.step unmarshalBinary .calculate = some moved := by
            simp only [Pipeline.step, at_, System.step, next, moved]
          have fewer : stepsLeft shared.consumer < k := left ▸ stepsLeft_consume next
          obtain ⟨t, rest⟩ := ih _ fewer (s := { s with pipeline := moved }) at_ rfl
          have settled := Settles.user (a := .calculate) trivial first rfl rfl rest
          exact ⟨t, settled.mono (by omega)⟩

/-- `CalcLatency` can be called when the consumer is idle. -/
theorem recv_of_idle {shared : System} (idle : shared.consumer = .idle) (pkt : Packet) :
    ∃ shared', shared.step (.recv pkt) = some shared' := by
  cases h : ipProtoNums pkt.protocol with
  | none => exact ⟨_, by simp only [System.step, idle, h]; rfl⟩
  | some proto => exact ⟨_, by simp only [System.step, idle, h]; rfl⟩

/-- Whatever the main loop is at, it can come back to its `select`. -/
theorem Consistent.settles (inv : Consistent s) (running : s.pipeline.main ≠ .returned) :
    ∃ t, Settles 5 s t := by
  cases at_ : s.pipeline.main with
  | selecting => exact ⟨s, (Settles.refl at_).mono (by decide)⟩
  | calculating =>
      have left := stepsLeft_le s.pipeline.shared.consumer
      obtain ⟨t, settled⟩ := Settles.calculating at_
      exact ⟨t, settled.mono (by omega)⟩
  | returned => exact absurd at_ running
  | crashed panic =>
      have alive := inv.alive
      rw [at_] at alive
      contradiction
  | handling sample =>
      obtain ⟨e, _, rfl⟩ := inv.next at_
      have idle := inv.waits (by rw [at_]; exact fun h => by contradiction)
      obtain ⟨shared, got⟩ := recv_of_idle idle e.packet
      let called : Pipeline :=
        { s.pipeline with
          main := .calculating
          shared := shared
          handed := s.pipeline.handed ++ [e.sample] }
      have first : s.pipeline.step unmarshalBinary .unmarshal = some called := by
        simp only [Pipeline.step, at_, e.unmarshalBinary_sample, got, called]
      have left := stepsLeft_le shared.consumer
      obtain ⟨t, settled⟩ := Settles.calculating (s := { s with pipeline := called }) rfl
      have rest : Settles 4 { s with pipeline := called } t :=
        settled.mono (Nat.succ_le_succ left)
      exact ⟨t, .user (a := .unmarshal) trivial first rfl rfl rest⟩

/-- What the reader holds can be handed over. -/
theorem Consistent.delivers (inv : Consistent s) (running : s.pipeline.main ≠ .returned)
    (reading : s.pipeline.reader ≠ .stopped) :
    ∃ t, Reaches s t ∧ t.pipeline.main = .selecting ∧ t.pipeline.reader = .reading ∧
      t.ring = s.ring := by
  obtain ⟨m, settled⟩ := inv.settles running
  cases at_ : m.pipeline.reader with
  | reading => exact ⟨m, settled.reaches, settled.selecting, at_, settled.ring⟩
  | stopped => exact absurd (settled.reader.symm.trans at_) reading
  | sending sample =>
      have received : Reaches m
          { m with
            pipeline := { m.pipeline with reader := .reading, main := .handling sample } } := by
        apply Reaches.user (a := .receive) (fun _ h => by contradiction)
        simp only [Pipeline.step, settled.selecting, at_]
      have reaches := settled.reaches.trans received
      obtain ⟨t, handled⟩ := (reaches.consistent inv).settles (fun h => by contradiction)
      exact ⟨t, reaches.trans handled.reaches, handled.selecting, handled.reader,
        handled.ring.trans settled.ring⟩

/-- The ring buffer can be emptied. -/
theorem Consistent.drains (inv : Consistent s) (running : s.pipeline.main ≠ .returned)
    (reading : s.pipeline.reader ≠ .stopped) :
    ∃ t, Reaches s t ∧ t.pipeline.main = .selecting ∧ t.pipeline.reader = .reading ∧
      t.ring = [] := by
  induction waiting : s.ring generalizing s with
  | nil =>
      obtain ⟨t, reaches, selecting, free, same⟩ := inv.delivers running reading
      exact ⟨t, reaches, selecting, free, same.trans waiting⟩
  | cons e ring ih =>
      obtain ⟨m, reaches, selecting, free, same⟩ := inv.delivers running reading
      have taken : Reaches m
          { m with
            ring := ring
            pipeline :=
              { m.pipeline with
                reader := .sending e.sample
                read := m.pipeline.read ++ [e.sample] } } := by
        refine Reaches.single (a := .read) ?_ ?_
        · rfl
        simp only [Deployment.step, same, waiting, Pipeline.step, free, selecting, Main.alive,
          if_true]
      have reaches := reaches.trans taken
      obtain ⟨t, later, done⟩ := ih (reaches.consistent inv)
        (by rw [selecting]; exact fun h => by contradiction) (fun h => by contradiction) rfl
      exact ⟨t, reaches.trans later, done⟩

/-- As long as `Run` and its reader go on, all events that are in the ring buffer can still be
handled, in the order in which they were appended. -/
theorem run_drains {as : List (Action n)} {t : Deployment order n}
    (run : Transition.run step start as = some t) (running : t.pipeline.main ≠ .returned)
    (reading : t.pipeline.reader ≠ .stopped) :
    ∃ u, Reaches t u ∧ u.pipeline.handed = t.appended.map Stamped.sample := by
  have inv := run_consistent run
  obtain ⟨u, reaches, selecting, free, empty⟩ := inv.drains running reading
  have after := reaches.consistent inv
  have conserves := after.conserves
  have fifo := after.fifo
  rw [Pipeline.Conserves, selecting, free] at conserves
  rw [conserves, empty, reaches.1] at fifo
  refine ⟨u, reaches, ?_⟩
  simpa [Pipeline.Main.pending, Pipeline.Reader.pending] using fifo

instance (m : Main) : Decidable (m = .returned) :=
  match m with
  | .returned => .isTrue rfl
  | .selecting | .handling _ | .calculating | .crashed _ => .isFalse fun h => by contradiction

instance (r : Reader) : Decidable (r = .stopped) :=
  match r with
  | .stopped => .isTrue rfl
  | .reading | .sending _ => .isFalse fun h => by contradiction

/-- One event is in the hands of `CalcLatency`, and another one in the ring buffer. -/
def oneWaiting : List (Action 4) :=
  [.capture 0 datagram4 0 1000, .append 0 0, .read, .user .receive, .user .unmarshal,
    .capture 1 datagram4 0 2000, .append 1 0]

theorem oneWaiting_drains :
    let t := (Transition.run (@step .little 4) start oneWaiting).get (by decide +kernel)
    ∃ u, Reaches t u ∧ u.pipeline.handed = t.appended.map Stamped.sample :=
  run_drains (Option.some_get _).symm (by decide +kernel) (by decide +kernel)

end Deployment

end Xcnf.Flow
