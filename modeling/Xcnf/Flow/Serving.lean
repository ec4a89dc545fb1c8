import Xcnf.Flow.Pipeline
import Xcnf.Flow.Uninterrupted

/-!
# What `Run` does at the table

Seen from the table, a run of the goroutines of `Run` is a run of `CalcLatency` and `Prune`:
`CalcLatency` is called with the packets that the samples decode to, in the order in which
they were handed on (`Pipeline.run_works`). Between two calls it shows what whole calls would
(`Pipeline.run_serves`). The decoder stays a parameter.
-/

namespace Xcnf.Flow

namespace Pipeline

def Action.tick? : Action → Option Tick
  | .tick a => a.tick?
  | _ => none

/-- The steps of `Prune`. -/
def ticks (as : List Action) : List Tick := as.filterMap Action.tick?

theorem ticks_snoc (as : List Action) (a : Action) :
    ticks (as ++ [a]) = ticks as ++ a.tick?.toList :=
  Transition.filterMap_snoc Action.tick? as a

/-- The packet of a sample, if the decoder returns one. -/
def packet? (decode : Sample → Go (Option Packet)) (sample : Sample) : Option Packet :=
  match decode sample with
  | .ok pkt => pkt
  | .error _ => none

/-- The packets that the samples decode to. -/
def packets (decode : Sample → Go (Option Packet)) (samples : List Sample) : List Packet :=
  samples.filterMap (packet? decode)

variable {decode : Sample → Go (Option Packet)} {s t : Pipeline}

theorem packets_snoc (samples : List Sample) (sample : Sample) :
    packets decode (samples ++ [sample]) =
      packets decode samples ++ (packet? decode sample).toList :=
  Transition.filterMap_snoc (packet? decode) samples sample

theorem consumer_of_lets {main : Main} {due : Bool} {shared shared' : System}
    {a : System.Action} (lets : main.lets due a = true) (h : shared.step a = some shared') :
    shared'.consumer = shared.consumer := by
  cases System.step_sound h with
  | unknown | get | insert | ignore | report | keep | found | missing | remove => contradiction
  | clock | visit | condemn | fresh | prune | rangeEnd => rfl

theorem packet?_of_lets {main : Main} {due : Bool} {a : System.Action}
    (lets : main.lets due a = true) :
    a.packet? = none := by
  cases a with
  | recv => contradiction
  | consume | clock | visit | compare | delete | rangeEnd => rfl

theorem idle_of_consume_eq_none {shared : System} (h : shared.consume = none) :
    shared.consumer = .idle := by
  unfold System.consume at h
  split at h
  next hat => exact hat
  next => split at h <;> contradiction
  next => split at h <;> contradiction
  next => split at h <;> contradiction
  next => contradiction

/-- Outside of `CalcLatency` nothing of it is left to do. -/
def Waits (s : Pipeline) : Prop := s.main ≠ .calculating → s.shared.consumer = .idle

theorem Waits.start : Waits start := fun _ => rfl

theorem Waits.step {a : Action} (inv : s.Waits) (h : step decode s a = some t) : t.Waits := by
  cases step_sound h with
  | read | readError | fire | cancel => exact inv
  | receive at_ | crash at_ | reject at_ | done at_ =>
      exact fun _ => inv (by rw [at_]; exact fun h => by contradiction)
  | call => exact fun other => absurd rfl other
  | calculate at_ => exact fun other => absurd at_ other
  | returns _ finished => exact fun _ => idle_of_consume_eq_none finished
  | tick lets next => exact fun other => (consumer_of_lets lets next).trans (inv other)

/-- The table has come about by these actions. -/
def Works (decode : Sample → Go (Option Packet)) (done : List Action) (s : Pipeline) : Prop :=
  ∃ as, Transition.run System.step System.start as = some s.shared ∧
    System.received as = packets decode s.handed ∧ System.ticks as = ticks done

theorem Works.start : Works decode [] start := ⟨[], rfl, rfl, rfl⟩

/-- A step at the table. -/
theorem Works.act {done : List Action} {a : Action} {k : System.Action}
    (inv : Works decode done s) (next : s.shared.step k = some t.shared)
    (packets : packets decode t.handed = packets decode s.handed ++ k.packet?.toList)
    (tick : a.tick? = k.tick?) : Works decode (done ++ [a]) t := by
  obtain ⟨as, run, received, ticked⟩ := inv
  refine ⟨as ++ [k], Transition.run_snoc run next, ?_, ?_⟩
  · rw [System.received_snoc, received, packets]
  · rw [System.ticks_snoc, ticks_snoc, ticked, tick]

/-- A step elsewhere. -/
theorem Works.pass {done : List Action} {a : Action} (inv : Works decode done s)
    (same : t.shared = s.shared) (packets : packets decode t.handed = packets decode s.handed)
    (tick : a.tick? = none) : Works decode (done ++ [a]) t := by
  obtain ⟨as, run, received, ticked⟩ := inv
  refine ⟨as, same ▸ run, packets ▸ received, ?_⟩
  rw [ticks_snoc, ticked, tick]
  exact (List.append_nil _).symm

theorem Works.step {done : List Action} {a : Action} (inv : Works decode done s)
    (h : step decode s a = some t) : Works decode (done ++ [a]) t := by
  cases step_sound h with
  | read | readError | receive | fire | cancel | done | returns => exact inv.pass rfl rfl rfl
  | @crash sample _ _ decoded | @reject sample _ decoded =>
      refine inv.pass rfl ?_ rfl
      rw [packets_snoc, packet?, decoded]
      exact List.append_nil _
  | @call sample _ _ _ decoded got =>
      refine inv.act got ?_ rfl
      rw [packets_snoc, packet?, decoded]
      rfl
  | calculate _ next => exact inv.act next (List.append_nil _).symm rfl
  | tick lets next =>
      refine inv.act next ?_ rfl
      rw [packet?_of_lets lets]
      exact (List.append_nil _).symm

/-- Seen from the table, every run is a run of `CalcLatency` and `Prune`. -/
theorem run_works {as : List Action} {t : Pipeline}
    (run : Transition.run (step decode) start as = some t) : Works decode as t :=
  Transition.run_invariant_history (fun _ _ _ _ => Works.step) Works.start run

/-- Between two calls of `CalcLatency`, the table and the latencies printed are those of whole
calls with the packets of the samples handed on, and of the same steps of `Prune`. -/
theorem run_serves {as : List Action} {t : Pipeline}
    (run : Transition.run (step decode) start as = some t) (between : t.main ≠ .calculating) :
    ∃ bs u, Transition.run Uninterrupted.step Uninterrupted.start bs = some u ∧
      Uninterrupted.called bs = packets decode t.handed ∧
      Uninterrupted.ticks bs = ticks as ∧ t.shared.Agrees u := by
  have waits : t.Waits := Transition.run_invariant (fun _ _ _ => Waits.step) Waits.start run
  obtain ⟨actions, worked, received, ticked⟩ := run_works run
  obtain ⟨bs, u, run', abreast⟩ := System.run_abreast worked
  obtain ⟨called, agrees⟩ := abreast.agrees (waits between)
  obtain ⟨_, _, _, ticked'⟩ := abreast
  exact ⟨bs, u, run', called.trans received, ticked'.trans ticked, agrees⟩

end Pipeline

end Xcnf.Flow
