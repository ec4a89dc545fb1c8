import Xcnf.Lib.RingBuffer
import Xcnf.Netkit.Probe

/-!
# The events of a netkit pair

The two programs of a pair run on many CPUs at a time, and each invocation fills in its
record store by store, in the slot that it has reserved. The goroutine of `run` reads the
ring buffer and prints, and ends at the first `Read` that fails.

Whatever the interleaving, the lines printed are the headers of the first packets that a slot
was reserved for, in the order of the reservations (`lines_eq`), and the rest of them can
still follow as long as the goroutine goes on (`lines_complete`).
-/

namespace Xcnf.Netkit

theorem apply_copyStores (order : ByteOrder) (data : List UInt8) (direction : UInt8)
    (event : Record) :
    RingBuffer.apply (copyStores order data direction) event =
      ipv6Event order data direction event := rfl

/-- Where programs run, the ring buffer, the goroutine that reads it and what has been
printed. -/
structure Stream (ι : Type) where
  ring : RingBuffer.State ι Record
  /-- The goroutine has not returned. -/
  reading : Bool
  lines : List Line

namespace Stream

variable {ι : Type}

def start : Stream ι where
  ring := RingBuffer.start
  reading := true
  lines := []

inductive Action (ι : Type) where
  /-- A program is started on a packet, and gets as far as the slot if it reserves one. -/
  | packet (cpu : ι) (d : Direction) (data : List UInt8) (reserved : Option Record)
  /-- The next store of the program. -/
  | store (cpu : ι)
  /-- `bpf_ringbuf_submit`. -/
  | submit (cpu : ι)
  /-- The goroutine reads a record and prints it. -/
  | read
  /-- `rd.Read` returns an error, and the goroutine returns. -/
  | readError

/-- What a program does for the packet, if it submits a record in the end. -/
def job? (order : ByteOrder) (d : Direction) (data : List UInt8) (reserved : Option Record) :
    Option (RingBuffer.Job Record) :=
  match reserved, d.program order data reserved with
  | some memory, .ok (_, _ :: _) => some ⟨memory, copyStores order data d.code⟩
  | _, _ => none

theorem job?_eq (order : ByteOrder) (d : Direction) (data : List UInt8)
    (reserved : Option Record) :
    job? order d data reserved =
      if IsIpv6 data then reserved.map fun memory => ⟨memory, copyStores order data d.code⟩
      else none := by
  cases reserved with
  | none =>
      rw [Option.map_none, ite_self]
      rfl
  | some memory =>
      have program := (d.program_eq order data (some memory)).trans (processIpv6_eq _ _ _ _)
      by_cases h : IsIpv6 data
      · rw [if_pos h] at program ⊢
        simp only [job?, program]
        rfl
      · rw [if_neg h] at program ⊢
        simp only [job?, program]

/-- What a step is to the ring buffer. -/
def ringActions (order : ByteOrder) : Action ι → List (RingBuffer.Action ι Record)
  | .packet cpu d data reserved => ((job? order d data reserved).map (.reserve cpu)).toList
  | .store cpu => [.store cpu]
  | .submit cpu => [.commit cpu]
  | .read => [.take]
  | .readError => []

/-! ## The packets of a run -/

/-- A packet that a slot is reserved for, and the program that sees it. -/
def Action.accepted? : Action ι → Option (List UInt8 × Direction)
  | .packet _ d data (some _) => if IsIpv6 data then some (data, d) else none
  | .packet _ _ _ none | .store _ | .submit _ | .read | .readError => none

/-- The packets that a slot was reserved for, in order. -/
def accepted (as : List (Action ι)) : List (List UInt8 × Direction) :=
  as.filterMap Action.accepted?

/-- The lines of these packets. -/
def headers (packets : List (List UInt8 × Direction)) : List Line :=
  packets.map fun p => Line.ofHeader p.1 p.2

theorem accepted_cons (a : Action ι) (as : List (Action ι)) :
    accepted (a :: as) = a.accepted?.toList ++ accepted as := by
  rw [accepted, List.filterMap_cons]
  cases a.accepted? <;> rfl

theorem jobs_step (a : Action ι) :
    ((RingBuffer.jobs (ringActions .little a)).map RingBuffer.Job.result).map Line.ofRecord =
      headers a.accepted?.toList := by
  cases a with
  | packet cpu d data reserved =>
      rw [ringActions, job?_eq]
      cases reserved with
      | none =>
          rw [Option.map_none, ite_self]
          rfl
      | some memory =>
          by_cases h : IsIpv6 data
          · have printed :
                Line.ofRecord (RingBuffer.apply (copyStores .little data d.code) memory) =
                  Line.ofHeader data d := by
              rw [apply_copyStores]
              exact ofRecord_ipv6Event data d memory
            rw [if_pos h, Action.accepted?, if_pos h]
            exact congrArg (fun line => [line]) printed
          · rw [if_neg h, Action.accepted?, if_neg h]
            rfl
  | store cpu | submit cpu | read | readError => rfl

theorem jobs_run (as : List (Action ι)) :
    ((RingBuffer.jobs (as.flatMap (ringActions .little))).map RingBuffer.Job.result).map
      Line.ofRecord = headers (accepted as) := by
  induction as with
  | nil => rfl
  | cons a as ih =>
      rw [List.flatMap_cons, RingBuffer.jobs_append, List.map_append, List.map_append, ih,
        jobs_step, accepted_cons, headers, headers, headers, List.map_append]

/-! ## Steps -/

variable [DecidableEq ι]

/-- A step of the ring buffer that prints nothing. -/
def act (s : Stream ι) (a : RingBuffer.Action ι Record) : Option (Stream ι) :=
  (RingBuffer.step s.ring a).map fun ring => { s with ring }

def step (order : ByteOrder) (s : Stream ι) : Action ι → Option (Stream ι)
  | .packet cpu d data reserved =>
    match s.ring.producers cpu, job? order d data reserved with
    | some _, _ => none
    | none, none => some s
    | none, some job => s.act (.reserve cpu job)
  | .store cpu => s.act (.store cpu)
  | .submit cpu => s.act (.commit cpu)
  | .read =>
    match s.reading, s.ring.entries[s.ring.taken]? with
    | true, some entry =>
      match printEvent (.ofList entry.content.bytes) with
      | .error _ => none
      | .ok line => (s.act .take).map fun s => { s with lines := s.lines ++ line.toList }
    | _, _ => none
  | .readError => if s.reading then some { s with reading := false } else none

variable {order : ByteOrder} {s t : Stream ι}

theorem act_iff {a : RingBuffer.Action ι Record} :
    s.act a = some t ↔ ∃ ring, RingBuffer.step s.ring a = some ring ∧ { s with ring } = t :=
  Option.map_eq_some_iff

/-- A record that has been committed can be read, and is printed. -/
theorem read_iff : step order s .read = some t ↔
    s.reading = true ∧ ∃ r, s.ring.entries[s.ring.taken]? = some ⟨false, r⟩ ∧
      { s with
        ring := { s.ring with taken := s.ring.taken + 1, consumed := s.ring.consumed ++ [r] }
        lines := s.lines ++ [Line.ofRecord r] } = t := by
  constructor
  · intro h
    simp only [step] at h
    split at h
    next entry reading front =>
        rw [printEvent_record (GoSlice.ofList_startsWith entry.content)] at h
        obtain ⟨_, taken, rfl⟩ := Option.map_eq_some_iff.mp h
        obtain ⟨ring, take, rfl⟩ := act_iff.mp taken
        cases RingBuffer.step_iff.mp take with
        | take front' =>
            obtain rfl := Option.some.inj (front.symm.trans front')
            exact ⟨reading, _, front', rfl⟩
    next => contradiction
  · rintro ⟨reading, r, front, rfl⟩
    have take := RingBuffer.step_iff.mpr (.take front)
    simp only [step, reading, front, printEvent_record (GoSlice.ofList_startsWith r), act, take]
    rfl

theorem readError_iff :
    step order s .readError = some t ↔ s.reading = true ∧ { s with reading := false } = t := by
  simp only [step, Option.ite_none_right_eq_some, Option.some.injEq]

theorem step_ring {a : Action ι} (h : step order s a = some t) :
    Transition.run RingBuffer.step s.ring (ringActions order a) = some t.ring := by
  cases a with
  | packet cpu d data reserved =>
      simp only [step] at h
      split at h
      next => contradiction
      next no =>
          rw [ringActions, no]
          exact congrArg (some ∘ ring) (Option.some.inj h)
      next job _ yes =>
          obtain ⟨ring, moved, rfl⟩ := act_iff.mp h
          rw [ringActions, yes]
          exact (Transition.run_single _).trans moved
  | store cpu | submit cpu =>
      obtain ⟨ring, moved, rfl⟩ := act_iff.mp h
      exact (Transition.run_single _).trans moved
  | read =>
      obtain ⟨_, r, front, rfl⟩ := read_iff.mp h
      exact (Transition.run_single _).trans (RingBuffer.step_iff.mpr (.take front))
  | readError =>
      obtain ⟨_, rfl⟩ := readError_iff.mp h
      rfl

/-- Every record that has been taken has been printed. -/
def Printed (s : Stream ι) : Prop := s.lines = s.ring.consumed.map Line.ofRecord

theorem Printed.act {a : RingBuffer.Action ι Record} (inv : Printed s) (h : s.act a = some t)
    (other : a ≠ .take) : Printed t := by
  obtain ⟨ring, moved, rfl⟩ := act_iff.mp h
  rw [Printed, RingBuffer.consumed_of_step moved other]
  exact inv

theorem Printed.step {a : Action ι} (inv : Printed s) (h : step order s a = some t) :
    Printed t := by
  cases a with
  | packet cpu d data reserved =>
      simp only [Stream.step] at h
      split at h
      next => contradiction
      next => exact Option.some.inj h ▸ inv
      next => exact inv.act h (by simp)
  | store cpu => exact inv.act h (by simp)
  | submit cpu => exact inv.act h (by simp)
  | read =>
      obtain ⟨_, r, front, rfl⟩ := read_iff.mp h
      rw [Printed, inv, List.map_append]
      rfl
  | readError =>
      obtain ⟨_, rfl⟩ := readError_iff.mp h
      exact inv

/-- A run of the stream is one of the ring buffer. -/
theorem run_ring {as : List (Action ι)} (run : Transition.run (step order) start as = some t) :
    Transition.run RingBuffer.step RingBuffer.start (as.flatMap (ringActions order)) =
        some t.ring ∧ Printed t := by
  have keep (done : List (Action ι)) (s : Stream ι) (a : Action ι) (t : Stream ι)
      (inv : Transition.run RingBuffer.step RingBuffer.start (done.flatMap (ringActions order)) =
        some s.ring ∧ Printed s) (h : step order s a = some t) :
      Transition.run RingBuffer.step RingBuffer.start ((done ++ [a]).flatMap (ringActions order)) =
        some t.ring ∧ Printed t := by
    refine ⟨?_, inv.2.step h⟩
    rw [List.flatMap_append, Transition.run_append, inv.1, List.flatMap_singleton]
    exact step_ring h
  have first : Transition.run RingBuffer.step RingBuffer.start
      (([] : List (Action ι)).flatMap (ringActions order)) = some (start : Stream ι).ring ∧
      Printed (start : Stream ι) := ⟨rfl, rfl⟩
  exact Transition.run_invariant_history keep first run

/-! ## What is printed -/

/-- However the programs and the reader interleave, what has been printed is the headers of
the packets that a slot was reserved for, from the first one on, in the order of the
reservations and without a gap: no line is torn, lost or printed twice. -/
theorem lines_eq {as : List (Action ι)}
    (run : Transition.run (step .little) start as = some t) :
    t.lines = headers ((accepted as).take t.lines.length) := by
  obtain ⟨ring, printed⟩ := run_ring run
  have first : t.lines = (headers (accepted as)).take t.ring.taken := by
    rw [printed, RingBuffer.run_consumed ring, ← jobs_run, List.map_take, List.map_take]
  have isPrefix : t.lines <+: headers (accepted as) := first ▸ List.take_prefix _ _
  rw [headers, List.map_take]
  exact List.prefix_iff_eq_take.mp isPrefix

/-- What the programs and the goroutine that reads can still do without a new packet. -/
def lift : RingBuffer.Action ι Record → Action ι
  | .reserve cpu _ | .store cpu => .store cpu
  | .commit cpu => .submit cpu
  | .take => .read

theorem run_lift {bs : List (RingBuffer.Action ι Record)} {ring : RingBuffer.State ι Record}
    (reading : s.reading = true) (h : Transition.run RingBuffer.step s.ring bs = some ring)
    (none : RingBuffer.jobs bs = []) :
    ∃ t, Transition.run (step order) s (bs.map lift) = some t ∧ t.ring = ring := by
  induction bs generalizing s with
  | nil => exact ⟨s, rfl, Option.some.inj h⟩
  | cons b bs ih =>
      obtain ⟨m, first, rest⟩ := Transition.run_cons_some.mp h
      obtain ⟨m', first', rfl, reading'⟩ :
          ∃ m', step order s (lift b) = some m' ∧ m'.ring = m ∧ m'.reading = true := by
        cases b with
        | reserve cpu job => contradiction
        | store cpu | commit cpu =>
            exact ⟨{ s with ring := m }, act_iff.mpr ⟨m, first, rfl⟩, rfl, reading⟩
        | take =>
            cases RingBuffer.step_iff.mp first with
            | take front => exact ⟨_, read_iff.mpr ⟨reading, _, front, rfl⟩, rfl, reading⟩
      have none' : RingBuffer.jobs bs = [] := by
        rw [← List.singleton_append, RingBuffer.jobs_append] at none
        exact (List.append_eq_nil_iff.mp none).2
      obtain ⟨t, run, same⟩ := ih reading' rest none'
      exact ⟨t, Transition.run_cons_some.mpr ⟨m', first', run⟩, same⟩

/-- Nothing is stuck: from every state that a run reaches, as long as no `Read` has failed,
the programs that have a slot and the goroutine that reads can go on until every such packet
has been printed. -/
theorem lines_complete {as : List (Action ι)}
    (run : Transition.run (step .little) start as = some s) (reading : s.reading = true) :
    ∃ bs t, Transition.run (step .little) s bs = some t ∧ accepted bs = [] ∧
      t.lines = headers (accepted as) := by
  obtain ⟨ring, printed⟩ := run_ring run
  obtain ⟨bs, ring', drain, none, consumed⟩ := RingBuffer.run_drain ring
  obtain ⟨t, run', rfl⟩ := @run_lift _ _ .little _ _ _ reading drain none
  refine ⟨bs.map lift, t, run', ?_, ?_⟩
  · rw [accepted, List.filterMap_map, List.filterMap_eq_nil_iff]
    intro b _
    cases b <;> rfl
  · have all : Transition.run (step .little) start (as ++ bs.map lift) = some t := by
      rw [Transition.run_append, run]
      exact run'
    rw [(run_ring all).2, consumed, jobs_run]

/-! ## Two packets, the later of which is done first -/

/-- An IPv6 packet, all of whose other bytes are `b`. -/
def ipv6Packet (b : UInt8) : List UInt8 :=
  List.replicate 12 b ++ [0x86, 0xDD] ++ List.replicate 40 b

def twoCpus : List (Action Bool) :=
  [.packet false .primary (ipv6Packet 1) (some (Region.zero sizeofIpv6Event)), .store false,
    .packet true .peer (ipv6Packet 2) (some (Region.zero sizeofIpv6Event))] ++
  List.replicate 6 (.store true) ++ [.submit true] ++ List.replicate 5 (.store false) ++
  [.submit false, .read, .read]

theorem twoCpus_lines :
    ∃ t, Transition.run (step .little) start twoCpus = some t ∧
      t.lines = headers ((accepted twoCpus).take t.lines.length) :=
  ⟨(Transition.run (step .little) start twoCpus).get (by decide +kernel),
    (Option.some_get _).symm, lines_eq (Option.some_get _).symm⟩

/-- The run up to the first `bpf_ringbuf_submit`. -/
theorem twoCpus_complete :
    ∃ s, Transition.run (step .little) start (twoCpus.take 10) = some s ∧
      ∃ bs t, Transition.run (step .little) s bs = some t ∧ accepted bs = [] ∧
        t.lines = headers (accepted (twoCpus.take 10)) :=
  ⟨(Transition.run (step .little) start (twoCpus.take 10)).get (by decide +kernel),
    (Option.some_get _).symm, lines_complete (Option.some_get _).symm (by decide +kernel)⟩

end Stream

end Xcnf.Netkit
