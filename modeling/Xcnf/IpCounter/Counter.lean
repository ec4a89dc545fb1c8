import Mathlib.Data.Fintype.Card
import Mathlib.Logic.Function.Basic
import Xcnf.Lib.Transition

/-!
# The packet counter

`count_packets` runs for each packet on the CPU that has received it. It looks up the one
value of the map `pkt_count` and adds 1 to it by an atomic instruction; the program in user
space reads the value at every tick and prints it. A run is any sequence of their steps.

Between the lookup and the addition the other CPUs may go on. No packet is lost by that, or
counted twice: the value is the number of packets whose invocation is over (`run_exact`),
modulo `2 ^ 64`.
-/

namespace Xcnf.IpCounter

/-- `max_entries` of `pkt_count`. -/
def maxEntries : Nat := 1

/-- `bpf_map_lookup_elem` in an array. The value is not initialised by anyone, so there is one
under every key that the array has. -/
def lookupElem (key : UInt32) : Option Unit := if key.toNat < maxEntries then some () else none

/-- Where a CPU is in `count_packets`. -/
inductive Cpu where
  | idle
  /-- The lookup is next. -/
  | called
  /-- The lookup has returned a pointer. -/
  | found
  deriving DecidableEq

/-- Where `main` is. -/
inductive Main where
  | removingMemlock
  | loadingObjects
  | gettingInterface
  | attachingXDP
  /-- In the loop; the program is attached. -/
  | counting
  | returned
  /-- `log.Fatal` was called with this text. -/
  | fatal (text : String)
  deriving DecidableEq

/-- The call of `main` that comes next succeeds. -/
def Main.succeed : Main → Option Main
  | .removingMemlock => some .loadingObjects
  | .loadingObjects => some .gettingInterface
  | .gettingInterface => some .attachingXDP
  | .attachingXDP => some .counting
  | .counting | .returned | .fatal _ => none

/-- It fails. -/
def Main.fail : Main → Option Main
  | .removingMemlock => some (.fatal "Removing memlock:")
  | .loadingObjects => some (.fatal "Loading eBPF objects:")
  | .gettingInterface => some (.fatal "Getting interface %s: %s")
  | .attachingXDP => some (.fatal "Attaching XDP:")
  | .counting | .returned | .fatal _ => none

/-- A line `Received %d packets`, with how many packets had arrived by then and how many of
them were still at work. -/
structure Reading where
  count : UInt64
  arrived : Nat
  atWork : Nat
  deriving DecidableEq

/-- The number of packets that were through when the value was read. -/
def Reading.through (r : Reading) : Nat := r.arrived - r.atWork

/-- The value that is read is the number of packets that are through. -/
structure Reading.Exact (r : Reading) : Prop where
  atWork : r.atWork ≤ r.arrived
  count : r.count = UInt64.ofNat r.through

structure Counter (n : Nat) where
  main : Main
  /-- The value of `pkt_count`. -/
  count : UInt64
  cpus : Fin n → Cpu
  /-- How many packets have arrived. -/
  arrived : Nat
  /-- Latest first. -/
  printed : List Reading

namespace Counter

variable {n : Nat}

def start : Counter n where
  main := .removingMemlock
  count := 0
  cpus := fun _ => .idle
  arrived := 0
  printed := []

/-- The CPUs at work on a packet. -/
def atWork (cpus : Fin n → Cpu) : Nat := (Finset.univ.filter fun cpu => cpus cpu ≠ .idle).card

inductive Action (n : Nat) where
  /-- The next call of `main` before the loop succeeds or fails. -/
  | setUp (ok : Bool)
  /-- `count_packets` is called for a packet. -/
  | packet (cpu : Fin n)
  | lookup (cpu : Fin n)
  /-- `__sync_fetch_and_add`, and the return of `XDP_PASS`. -/
  | add (cpu : Fin n)
  /-- The ticker fires, and `Lookup` succeeds or fails. -/
  | tick (ok : Bool)
  /-- A signal ends the loop. -/
  | stop

def step (s : Counter n) : Action n → Option (Counter n)
  | .setUp ok =>
    match if ok then s.main.succeed else s.main.fail with
    | none => none
    | some main => some { s with main := main }
  | .packet cpu =>
    if s.main = .counting ∧ s.cpus cpu = .idle then
      some { s with cpus := Function.update s.cpus cpu .called, arrived := s.arrived + 1 }
    else
      none
  | .lookup cpu =>
    match s.cpus cpu with
    | .called =>
      match lookupElem 0 with
      | some _ => some { s with cpus := Function.update s.cpus cpu .found }
      | none => some { s with cpus := Function.update s.cpus cpu .idle }
    | _ => none
  | .add cpu =>
    match s.cpus cpu with
    | .found =>
      some { s with cpus := Function.update s.cpus cpu .idle, count := s.count + 1 }
    | _ => none
  | .tick ok =>
    if s.main = .counting then
      if ok then
        some { s with printed := ⟨s.count, s.arrived, atWork s.cpus⟩ :: s.printed }
      else
        some { s with main := .fatal "Map lookup:" }
    else
      none
  | .stop => if s.main = .counting then some { s with main := .returned } else none

/-- What a step can do. -/
inductive Step (s : Counter n) : Action n → Counter n → Prop where
  | main {a m} (other : ∀ cpu, a ≠ .packet cpu) : Step s a { s with main := m }
  | packet {cpu} (idle : s.cpus cpu = .idle) :
      Step s (.packet cpu)
        { s with cpus := Function.update s.cpus cpu .called, arrived := s.arrived + 1 }
  | found {cpu} (called : s.cpus cpu = .called) :
      Step s (.lookup cpu) { s with cpus := Function.update s.cpus cpu .found }
  | add {cpu} (found : s.cpus cpu = .found) :
      Step s (.add cpu)
        { s with cpus := Function.update s.cpus cpu .idle, count := s.count + 1 }
  | print : Step s (.tick true)
      { s with printed := ⟨s.count, s.arrived, atWork s.cpus⟩ :: s.printed }

variable {s t : Counter n}

theorem step_sound {a : Action n} (h : step s a = some t) : Step s a t := by
  cases a with
  | setUp ok =>
      simp only [step] at h
      split at h
      next => contradiction
      next => exact Option.some.inj h ▸ .main fun _ h => by contradiction
  | packet cpu =>
      simp only [step] at h
      split at h
      next ready => exact Option.some.inj h ▸ .packet ready.2
      next => contradiction
  | lookup cpu =>
      simp only [step] at h
      split at h
      next called => exact Option.some.inj h ▸ .found called
      next => contradiction
  | add cpu =>
      simp only [step] at h
      split at h
      next found => exact Option.some.inj h ▸ .add found
      next => contradiction
  | tick ok =>
      simp only [step] at h
      split at h
      next =>
          cases ok with
          | true => exact Option.some.inj h ▸ .print
          | false => exact Option.some.inj h ▸ .main fun _ h => by contradiction
      next => contradiction
  | stop =>
      simp only [step] at h
      split at h
      next => exact Option.some.inj h ▸ .main fun _ h => by contradiction
      next => contradiction

/-! ## Every packet is counted once -/

theorem atWork_begin {cpus : Fin n → Cpu} {cpu : Fin n} (idle : cpus cpu = .idle) {c : Cpu}
    (busy : c ≠ .idle) : atWork (Function.update cpus cpu c) = atWork cpus + 1 := by
  have inserted : (Finset.univ.filter fun other => Function.update cpus cpu c other ≠ .idle) =
      insert cpu (Finset.univ.filter fun other => cpus other ≠ .idle) := by
    ext other
    by_cases same : other = cpu
    · simp [same, busy]
    · simp [same]
  rw [atWork, inserted, Finset.card_insert_of_notMem (by simp [idle]), atWork]

theorem atWork_go {cpus : Fin n → Cpu} {cpu : Fin n} (busy : cpus cpu ≠ .idle) {c : Cpu}
    (still : c ≠ .idle) : atWork (Function.update cpus cpu c) = atWork cpus := by
  rw [atWork, atWork]
  congr 1
  ext other
  by_cases same : other = cpu
  · simp [same, busy, still]
  · simp [same]

theorem atWork_finish {cpus : Fin n → Cpu} {cpu : Fin n} (busy : cpus cpu ≠ .idle) :
    atWork (Function.update cpus cpu .idle) + 1 = atWork cpus := by
  have idle : Function.update cpus cpu .idle cpu = .idle := Function.update_self ..
  have again := atWork_begin idle busy
  rw [Function.update_idem, Function.update_eq_self] at again
  exact again.symm

/-- The value that would be read now. -/
def reading (s : Counter n) : Reading := ⟨s.count, s.arrived, atWork s.cpus⟩

/-- Whatever is read is exact, and later readings are not behind earlier ones. -/
structure Exact (s : Counter n) : Prop where
  now : s.reading.Exact
  printed : ∀ r ∈ s.printed, r.Exact ∧ r.through ≤ s.reading.through
  sorted : s.printed.Pairwise fun later earlier => earlier.through ≤ later.through

theorem Exact.start : Exact (start : Counter n) where
  now := by
    have none : atWork (fun _ : Fin n => Cpu.idle) = 0 := by simp [atWork]
    refine ⟨Nat.le_of_eq none, ?_⟩
    simp only [reading, Counter.start, Reading.through, none]
    rfl
  printed := fun r h => by contradiction
  sorted := .nil

/-- A step that prints nothing, and after which no fewer packets are through. -/
theorem Exact.advance (inv : Exact s) (now : t.reading.Exact) (same : t.printed = s.printed)
    (le : s.reading.through ≤ t.reading.through) : Exact t where
  now := now
  printed := fun r hr => by
    obtain ⟨exact_, before⟩ := inv.printed r (same ▸ hr)
    exact ⟨exact_, before.trans le⟩
  sorted := same ▸ inv.sorted

theorem Exact.step {a : Action n} (inv : Exact s) (h : step s a = some t) : Exact t := by
  have few : atWork s.cpus ≤ s.arrived := inv.now.atWork
  have count : s.count = UInt64.ofNat (s.arrived - atWork s.cpus) := inv.now.count
  cases step_sound h with
  | main => exact inv.advance inv.now rfl (Nat.le_refl _)
  | packet idle =>
      have more := atWork_begin idle (c := .called) (by decide)
      refine inv.advance ⟨?_, ?_⟩ rfl ?_
      · simp only [reading, more]
        omega
      · simp only [reading, Reading.through, more, count]
        congr 1
        omega
      · simp only [Reading.through, reading, more]
        omega
  | @found cpu called =>
      have busy : s.cpus cpu ≠ .idle := by rw [called]; decide
      have same := atWork_go busy (c := .found) (by decide)
      refine inv.advance ⟨?_, ?_⟩ rfl ?_
      · simpa only [reading, same] using few
      · simpa only [reading, Reading.through, same] using count
      · simp only [Reading.through, reading, same, Nat.le_refl]
  | @add cpu found =>
      have busy : s.cpus cpu ≠ .idle := by rw [found]; decide
      have fewer := atWork_finish busy
      refine inv.advance ⟨?_, ?_⟩ rfl ?_
      · simp only [reading]
        omega
      · have one : s.arrived - atWork (Function.update s.cpus cpu .idle) =
            s.arrived - atWork s.cpus + 1 := by omega
        simp only [reading, Reading.through, one, count, UInt64.ofNat_add]
        rfl
      · simp only [Reading.through, reading]
        omega
  | print =>
      refine ⟨inv.now, ?_, .cons (fun r hr => (inv.printed r hr).2) inv.sorted⟩
      intro r hr
      cases hr with
      | head => exact ⟨inv.now, Nat.le_refl _⟩
      | tail _ hr => exact inv.printed r hr

/-- In every run, on any number of CPUs, every value printed is the number of packets that
were through at the time. -/
theorem run_exact {as : List (Action n)} {t : Counter n}
    (run : Transition.run step start as = some t) : t.Exact :=
  Transition.run_invariant (fun _ _ _ => Exact.step) Exact.start run

/-- All three CPUs have looked up the value when the first of them adds 1. -/
def allFound : List (Action 3) :=
  [.setUp true, .setUp true, .setUp true, .setUp true, .packet 0, .packet 1, .lookup 0,
    .packet 2, .lookup 1, .lookup 2, .add 0, .tick true, .add 2, .add 1, .tick true, .stop]

theorem allFound_exact :
    ((Transition.run step start allFound).get (by decide +kernel)).Exact :=
  run_exact (Option.some_get _).symm

end Counter

end Xcnf.IpCounter
