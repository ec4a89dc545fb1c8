import Xcnf.Lib.Effect
import Xcnf.Kernel.Headers
import Xcnf.Flow.Pipeline

/-!
# Setting the probe up and running it

`Run` acquires what the probe needs one call after the other and then enters the select
loop. The calls go to libraries and to the kernel and are parameters (`Deps`), which may
fail in any state. All failures are returned as errors but two: the error of `newProbe`
is never looked at, and a reader goroutine whose `Read` fails returns while the loop that
it feeds goes on. `FailuresSurface` is what holds as long as neither happens.
-/

namespace Xcnf.Flow

open Effect

/-! ## Traffic control objects -/

def handleClsact : UInt32 := 0xFFFFFFF1
def handleMinIngress : UInt32 := 0xFFFFFFF2
def handleMinEgress : UInt32 := 0xFFFFFFF3

/-- `netlink.MakeHandle`. -/
def makeHandle (major minor : UInt16) : UInt32 := major.toUInt32 <<< 16 ||| minor.toUInt32

structure QdiscAttrs where
  linkIndex : Nat
  handle : UInt32
  parent : UInt32
  deriving DecidableEq

/-- `clsact.ClsAct`, whose `Type` is always `clsact`. -/
structure ClsAct where
  attrs : QdiscAttrs
  deriving DecidableEq

structure FilterAttrs where
  linkIndex : Nat
  handle : UInt32
  parent : UInt32
  protocol : UInt16
  deriving DecidableEq

structure BpfFilter where
  attrs : FilterAttrs
  fd : Nat
  directAction : Bool
  deriving DecidableEq

/-- `ProbeObjects`: the descriptors of the program `flat` and of the map `pipe`. -/
structure ProbeObjects where
  flat : Nat
  pipe : Nat
  deriving DecidableEq

/-! ## The probe -/

/-- What `Run` and its helpers call, with errors `ε` and states `κ` of the system. A link
is given by its index, a netlink handle and a ring buffer reader by a number. -/
structure Deps (ε κ : Type) where
  setRlimit : Call ε κ Unit
  linkByName : String → Call ε κ Nat
  newHandle : Call ε κ Nat
  loadProbeObjects : Call ε κ ProbeObjects
  qdiscAdd : Nat → ClsAct → Call ε κ Unit
  qdiscReplace : Nat → ClsAct → Call ε κ Unit
  qdiscDel : Nat → ClsAct → Call ε κ Unit
  filterAdd : Nat → BpfFilter → Call ε κ Unit
  filterReplace : Nat → BpfFilter → Call ε κ Unit
  newReader : Nat → Call ε κ Nat
  closeObjects : ProbeObjects → Call ε κ Unit
  /-- `Handle.Delete` returns nothing. -/
  handleDelete : Nat → κ → κ

/-- `probe`, as `newProbe` returns it. -/
structure Probe where
  iface : Nat
  handle : Nat
  qdisc : ClsAct
  bpfObjects : ProbeObjects
  filters : List BpfFilter
  deriving DecidableEq

/-- The qdisc of `createQdisc`. -/
def clsactOn (iface : Nat) : ClsAct :=
  ⟨{ linkIndex := iface, handle := makeHandle 0xffff 0, parent := handleClsact }⟩

/-- The filter that `addFilter` appends. -/
def bpfFilter (iface fd : Nat) (parent : UInt32) (protocol : UInt16) : BpfFilter where
  attrs :=
    { linkIndex := iface
      handle := makeHandle 0xffff 0
      parent := parent
      protocol := protocol }
  fd := fd
  directAction := true

/-- The filters of `createFilters`, in the order of its calls of `addFilter`. -/
def probeFilters (iface : Nat) (objects : ProbeObjects) : List BpfFilter :=
  [bpfFilter iface objects.flat handleMinIngress ethPIp,
    bpfFilter iface objects.flat handleMinEgress ethPIp,
    bpfFilter iface objects.flat handleMinIngress ethPIpv6,
    bpfFilter iface objects.flat handleMinEgress ethPIpv6]

section

variable {ε κ : Type} (deps : Deps ε κ)

/-- `createQdisc`. -/
def createQdisc (iface handle : Nat) : Call ε κ ClsAct := do
  let qdisc := clsactOn iface
  orElse (deps.qdiscAdd handle qdisc) (deps.qdiscReplace handle qdisc)
  return qdisc

/-- `createFilters`. -/
def createFilters (iface handle : Nat) (objects : ProbeObjects) : Call ε κ (List BpfFilter) := do
  let filters := probeFilters iface objects
  each (fun filter => orElse (deps.filterAdd handle filter) (deps.filterReplace handle filter))
    filters
  return filters

/-- `newProbe`. With an error it returns the nil pointer. -/
def newProbe (iface : Nat) : Call ε κ Probe := do
  let handle ← deps.newHandle
  let objects ← deps.loadProbeObjects
  let qdisc ← createQdisc deps iface handle
  let filters ← createFilters deps iface handle objects
  return { iface, handle, qdisc, bpfObjects := objects, filters }

/-- `Close`, which `Run` does not call. -/
def Probe.close (hook : Probe) : Call ε κ Unit := do
  deps.qdiscDel hook.handle hook.qdisc
  modify (deps.handleDelete hook.handle)
  deps.closeObjects hook.bpfObjects

/-- `Run` up to its loop, with the probe and the reader. An error is returned; `none` is
the dereference of the nil pointer in `hook.bpfObjects`. The interface that `Run` is
given is replaced by `eth0`. -/
def setUp : Call ε κ (Option (Probe × Nat)) := do
  deps.setRlimit
  let iface ← deps.linkByName "eth0"
  -- the error of `newProbe` is assigned to a variable that is assigned again unread
  match ← ignoring (newProbe deps iface) with
  | none => return none
  | some hook =>
    let reader ← deps.newReader hook.bpfObjects.pipe
    return some (hook, reader)

/-! ## The states of `Run` -/

inductive Monitor (ε κ : Type) where
  | running (hook : Probe) (reader : Nat) (system : κ) (pipeline : Pipeline)
  /-- `Run` has returned; `none` is the nil error. -/
  | returned (err : Option ε) (system : κ)
  /-- A nil pointer was dereferenced. -/
  | panicked (system : κ)

namespace Monitor

/-- `Run` when it has been called in the given state. -/
def start (system : κ) : Monitor ε κ :=
  match setUp deps system with
  | .error err system => .returned (some err) system
  | .ok none system => .panicked system
  | .ok (some (hook, reader)) system => .running hook reader system Pipeline.start

variable (decode : Sample → Go (Option Packet))

/-- A step of the loop and of the goroutines beside it. When the loop is left, the
result is that of `hook.bpfObjects.Close`. -/
def step : Monitor ε κ → Pipeline.Action → Option (Monitor ε κ)
  | .running hook reader system pipeline, a =>
    match Pipeline.step decode pipeline a with
    | none => none
    | some next =>
      match next.main with
      | .returned =>
        match deps.closeObjects hook.bpfObjects system with
        | .ok _ system => some (.returned none system)
        | .error err system => some (.returned (some err) system)
      | _ => some (.running hook reader system next)
  | .returned _ _, _ => none
  | .panicked _, _ => none

end Monitor

/-! ## Set-up -/

/-- The calls of `newProbe` succeed. A qdisc or a filter that cannot be added may be
replaced. -/
def Installs (iface : Nat) (k : κ) (hook : Probe) (k' : κ) : Prop :=
  hook.iface = iface ∧ hook.qdisc = clsactOn iface ∧
    hook.filters = probeFilters iface hook.bpfObjects ∧
    ∃ k1 k2 k3, deps.newHandle k = .ok hook.handle k1 ∧
      deps.loadProbeObjects k1 = .ok hook.bpfObjects k2 ∧
      EitherOk (deps.qdiscAdd hook.handle hook.qdisc) (deps.qdiscReplace hook.handle hook.qdisc) ()
        k2 k3 ∧
      Chain
        (fun filter =>
          EitherOk (deps.filterAdd hook.handle filter) (deps.filterReplace hook.handle filter) ())
        hook.filters k3 k'

/-- Set-up as it is meant, with every error looked at. -/
def checkedSetUp : Call ε κ (Probe × Nat) := do
  deps.setRlimit
  let iface ← deps.linkByName "eth0"
  let hook ← newProbe deps iface
  let reader ← deps.newReader hook.bpfObjects.pipe
  return (hook, reader)

variable {deps} {iface : Nat} {hook : Probe} {k k' : κ}

theorem createQdisc_ok {handle : Nat} {qdisc : ClsAct} :
    createQdisc deps iface handle k = .ok qdisc k' ↔ qdisc = clsactOn iface ∧
      EitherOk (deps.qdiscAdd handle qdisc) (deps.qdiscReplace handle qdisc) () k k' := by
  simp only [createQdisc, bind_ok, orElse_ok, pure_ok]
  constructor
  · rintro ⟨_, m, put, rfl, rfl⟩
    exact ⟨rfl, put⟩
  · rintro ⟨rfl, put⟩
    exact ⟨(), k', put, rfl, rfl⟩

theorem createFilters_ok {handle : Nat} {objects : ProbeObjects} {filters : List BpfFilter} :
    createFilters deps iface handle objects k = .ok filters k' ↔
      filters = probeFilters iface objects ∧
        Chain
          (fun filter =>
            EitherOk (deps.filterAdd handle filter) (deps.filterReplace handle filter) ())
          filters k k' := by
  simp only [createFilters, bind_ok, each_ok, orElse_ok, pure_ok]
  constructor
  · rintro ⟨_, m, put, rfl, rfl⟩
    exact ⟨rfl, put⟩
  · rintro ⟨rfl, put⟩
    exact ⟨(), k', put, rfl, rfl⟩

theorem newProbe_ok : newProbe deps iface k = .ok hook k' ↔ Installs deps iface k hook k' := by
  simp only [newProbe, bind_ok, createQdisc_ok, createFilters_ok, pure_ok]
  constructor
  · rintro ⟨handle, k1, gotHandle, objects, k2, loaded, qdisc, k3, ⟨rfl, putQdisc⟩, filters, k4,
      ⟨rfl, putFilters⟩, rfl, rfl⟩
    exact ⟨rfl, rfl, rfl, k1, k2, k3, gotHandle, loaded, putQdisc, putFilters⟩
  · rintro ⟨rfl, hqdisc, hfilters, k1, k2, k3, gotHandle, loaded, putQdisc, putFilters⟩
    exact ⟨_, k1, gotHandle, _, k2, loaded, _, k3, ⟨hqdisc, putQdisc⟩, _, k',
      ⟨hfilters, putFilters⟩, rfl, rfl⟩

/-- `newProbe` succeeds if it is called. -/
def ProbeInstalls (deps : Deps ε κ) (k : κ) : Prop :=
  ∀ k1 iface k2, deps.setRlimit k = .ok () k1 → deps.linkByName "eth0" k1 = .ok iface k2 →
    ∃ hook k3, Installs deps iface k2 hook k3

/-- Where `newProbe` does not fail, `Run` sets up as it is meant to. -/
theorem setUp_eq (installs : ProbeInstalls deps k) :
    setUp deps k =
      match checkedSetUp deps k with
      | .ok both k' => .ok (some both) k'
      | .error err k' => .error err k' := by
  simp only [setUp, checkedSetUp, bind_apply, ignoring]
  cases limited : deps.setRlimit k with
  | error err k1 => rfl
  | ok _ k1 =>
    dsimp only
    cases found : deps.linkByName "eth0" k1 with
    | error err k2 => rfl
    | ok iface k2 =>
      obtain ⟨hook, k3, installed⟩ := installs k1 iface k2 limited found
      simp only [newProbe_ok.mpr installed]
      change (deps.newReader hook.bpfObjects.pipe >>= _) k3 = _
      rw [bind_apply]
      cases deps.newReader hook.bpfObjects.pipe k3 <;> rfl

/-! ## Failures surface -/

/-- The loop of `Run` goes on. -/
def Main.looping : Main → Bool
  | .selecting | .handling _ | .calculating => true
  | .returned | .crashed _ => false

def SetUpFails (deps : Deps ε κ) (k : κ) : Prop := ∃ err k', checkedSetUp deps k = .error err k'

/-- `Run`, called in state `k`, has not dereferenced a probe that there is not, has returned
an error if its set-up failed, and is not in its loop without a reader to feed it. -/
structure FailuresSurface (deps : Deps ε κ) (k : κ) (m : Monitor ε κ) : Prop where
  noNilProbe : ∀ k', m ≠ .panicked k'
  setUp : SetUpFails deps k → ∃ err k', m = .returned (some err) k'
  reader : ∀ hook reader k' s, m = .running hook reader k' s → s.main.looping = true →
    s.reader ≠ .stopped

/-- The action is not a failing `reader.Read`. -/
def ReadSucceeds : Pipeline.Action → Prop
  | .readError => False
  | _ => True

instance (a : Pipeline.Action) : Decidable (ReadSucceeds a) :=
  match a with
  | .readError => .isFalse id
  | .read _ | .receive | .unmarshal | .calculate => .isTrue trivial
  | .fire | .tick _ | .cancel | .done => .isTrue trivial

variable {decode : Sample → Go (Option Packet)}

/-- Only a failing `Read` ends the reader goroutine. -/
theorem Pipeline.reader_goes_on {s t : Pipeline} {a : Pipeline.Action}
    (goes : s.reader ≠ .stopped) (succeeds : ReadSucceeds a) (h : step decode s a = some t) :
    t.reader ≠ .stopped := by
  cases step_sound h with
  | read | receive => exact fun e => by contradiction
  | readError => exact succeeds.elim
  | crash | reject | call | calculate | returns | fire | tick | cancel | done => exact goes

namespace Monitor

variable {m m' : Monitor ε κ} {a : Pipeline.Action}

/-- A step is one of the loop, and if it leaves the loop closes the BPF objects. -/
theorem step_cases (h : step deps decode m a = some m') :
    ∃ hook reader k s next, m = .running hook reader k s ∧ Pipeline.step decode s a = some next ∧
      (m' = .running hook reader k next ∨
        (∃ k', deps.closeObjects hook.bpfObjects k = .ok () k' ∧ m' = .returned none k') ∨
        ∃ err k', deps.closeObjects hook.bpfObjects k = .error err k' ∧
          m' = .returned (some err) k') := by
  cases m with
  | returned | panicked => contradiction
  | running hook reader k s =>
      simp only [step] at h
      split at h
      next => contradiction
      next next moved =>
        refine ⟨hook, reader, k, s, next, rfl, moved, ?_⟩
        split at h
        next =>
          split at h
          next k' closed => exact .inr (.inl ⟨k', closed, (Option.some.inj h).symm⟩)
          next err k' failed => exact .inr (.inr ⟨err, k', failed, (Option.some.inj h).symm⟩)
        next => exact .inl (Option.some.inj h).symm

/-- The reader goroutine feeds a running loop. -/
def Fed (m : Monitor ε κ) : Prop :=
  (∀ k, m ≠ .panicked k) ∧ ∀ hook reader k s, m = .running hook reader k s → s.reader ≠ .stopped

theorem Fed.step (fed : m.Fed) (succeeds : ReadSucceeds a) (h : step deps decode m a = some m') :
    m'.Fed := by
  obtain ⟨hook, reader, k, s, next, rfl, moved, rfl | ⟨_, _, rfl⟩ | ⟨_, _, _, rfl⟩⟩ :=
    step_cases h
  · refine ⟨fun _ e => by contradiction, fun _ _ _ _ e => ?_⟩
    obtain ⟨_, _, _, rfl⟩ := Monitor.running.inj e
    exact Pipeline.reader_goes_on (fed.2 _ _ _ _ rfl) succeeds moved
  · exact ⟨fun _ e => by contradiction, fun _ _ _ _ e => by contradiction⟩
  · exact ⟨fun _ e => by contradiction, fun _ _ _ _ e => by contradiction⟩

/-- If `newProbe` does not fail, the failures of set-up are returned. -/
theorem start_fails (installs : ProbeInstalls deps k) (fails : SetUpFails deps k) :
    ∃ err k', (start deps k : Monitor ε κ) = .returned (some err) k' := by
  obtain ⟨err, k', failed⟩ := fails
  refine ⟨err, k', ?_⟩
  simp only [start, setUp_eq installs, failed]

theorem start_fed (installs : ProbeInstalls deps k) : (start deps k : Monitor ε κ).Fed := by
  simp only [start, setUp_eq installs]
  cases checkedSetUp deps k with
  | error err k' => exact ⟨fun _ e => by contradiction, fun _ _ _ _ e => by contradiction⟩
  | ok both k' =>
      refine ⟨fun _ e => by contradiction, fun _ _ _ _ e => ?_⟩
      obtain ⟨_, _, _, rfl⟩ := Monitor.running.inj e
      exact fun stopped => by contradiction

/-- As long as `newProbe` does not fail and no `Read` fails, every failure surfaces. -/
theorem run_failuresSurface {as : List Pipeline.Action} (installs : ProbeInstalls deps k)
    (reads : Transition.Along (step deps decode) (fun _ a => ReadSucceeds a) (start deps k) as)
    (run : Transition.run (step deps decode) (start deps k) as = some m) :
    FailuresSurface deps k m := by
  have fed : m.Fed :=
    Transition.run_invariant_along (fun _ _ _ => Fed.step) (start_fed installs) reads run
  refine ⟨fed.1, fun fails => ?_, fun hook reader k' s e _ => fed.2 hook reader k' s e⟩
  obtain ⟨err, k', returned⟩ := start_fails installs fails
  rw [returned] at run
  exact ⟨err, k', Transition.run_stuck (fun _ => rfl) run⟩

/-- And if `newProbe` fails, there is nothing else that can become of `Run`. -/
theorem start_panicked_iff :
    (∃ k', (start deps k : Monitor ε κ) = .panicked k') ↔ ¬ ProbeInstalls deps k := by
  constructor
  · rintro ⟨k', panicked⟩ installs
    exact (start_fed installs).1 k' panicked
  · intro fails
    simp only [ProbeInstalls, not_forall] at fails
    obtain ⟨k1, iface, k2, limited, found, none⟩ := fails
    cases made : newProbe deps iface k2 with
    | ok hook k3 => exact absurd ⟨hook, k3, newProbe_ok.mp made⟩ none
    | error err k3 =>
        have unchecked : setUp deps k = .ok .none k3 := by
          simp only [setUp, bind_apply, ignoring, limited, found, made]
          rfl
        exact ⟨k3, by rw [start, unchecked]⟩

end Monitor

end

/-! ## Libraries that never fail -/

def idleDeps : Deps String Unit where
  setRlimit := pure ()
  linkByName := fun _ => pure 2
  newHandle := pure 3
  loadProbeObjects := pure ⟨4, 5⟩
  qdiscAdd := fun _ _ => pure ()
  qdiscReplace := fun _ _ => pure ()
  qdiscDel := fun _ _ => pure ()
  filterAdd := fun _ _ => pure ()
  filterReplace := fun _ _ => pure ()
  newReader := fun _ => pure 6
  closeObjects := fun _ => pure ()
  handleDelete := fun _ k => k

theorem idleDeps_installs : ProbeInstalls idleDeps () :=
  fun _ iface _ _ _ =>
    ⟨⟨iface, 3, clsactOn iface, ⟨4, 5⟩, probeFilters iface ⟨4, 5⟩⟩, (), newProbe_ok.mp rfl⟩

theorem cancelledBetween_failuresSurface :
    FailuresSurface idleDeps ()
      ((Transition.run (Monitor.step idleDeps unmarshalBinary) (Monitor.start idleDeps ())
        Pipeline.cancelledBetween).get (by decide +kernel)) :=
  Monitor.run_failuresSurface idleDeps_installs (by decide +kernel) (Option.some_get _).symm

/-- There is no netlink handle to be had. -/
def noHandle : Deps String Unit := { idleDeps with newHandle := throw "no buffer space available" }

/-- The probe that is missing is dereferenced. -/
theorem noHandle_refutes_failuresSurface :
    ¬ ∀ (ε κ : Type) (deps : Deps ε κ) (decode : Sample → Go (Option Packet)) (k : κ)
      (as : List Pipeline.Action) (m : Monitor ε κ),
      Transition.run (Monitor.step deps decode) (Monitor.start deps k) as = some m →
        FailuresSurface deps k m := by
  intro claimed
  have surfaces := claimed String Unit noHandle unmarshalBinary () [] (.panicked ()) rfl
  exact surfaces.noNilProbe () rfl

/-- After one failing `Read` the loop goes on, and nothing feeds it. -/
example : ∃ hook reader s,
    Transition.run (Monitor.step idleDeps unmarshalBinary) (Monitor.start idleDeps ())
        [.readError] = some (.running hook reader () s) ∧
      s.main.looping = true ∧ s.reader = .stopped := ⟨_, _, _, rfl, rfl, rfl⟩

end Xcnf.Flow
