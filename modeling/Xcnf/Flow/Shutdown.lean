import Mathlib.Logic.Function.Basic
import Xcnf.Flow.Kprobe

/-!
# What a run leaves behind

The system as far as `Run` changes it: the links with their queueing disciplines and
filters, and the handles, BPF objects and ring buffer readers that the process has open.
When `Run` is cancelled it closes the BPF objects and nothing else, so that each run
leaves a handle, a reader, the qdisc and the filters behind (`session_leaves`). `Close`,
which is never called, would release all of these but the reader (`close_leaves`).
-/

namespace Xcnf.Flow

open Effect

structure Resources where
  link : String → Option Nat
  qdisc : Nat → Option ClsAct
  filters : Nat → List BpfFilter
  handles : List Nat
  objects : List ProbeObjects
  readers : List Nat

namespace Resources

def setQdisc (v : Resources) (i : Nat) (q : Option ClsAct) : Resources :=
  { v with qdisc := Function.update v.qdisc i q }

def setFilters (v : Resources) (i : Nat) (fs : List BpfFilter) : Resources :=
  { v with filters := Function.update v.filters i fs }

@[simp] theorem setFilters_self (v : Resources) (i : Nat) : v.setFilters i (v.filters i) = v := by
  rw [setFilters, Function.update_eq_self]

@[simp] theorem setFilters_setFilters (v : Resources) (i : Nat) (fs gs : List BpfFilter) :
    (v.setFilters i fs).setFilters i gs = v.setFilters i gs := by
  simp only [setFilters, Function.update_idem]

@[simp] theorem filters_setFilters (v : Resources) (i : Nat) (fs : List BpfFilter) :
    (v.setFilters i fs).filters i = fs := by
  simp only [setFilters, Function.update_self]

end Resources

/-- What the calls do to the resources, as far as they are documented. -/
structure Deps.Lawful {ε κ : Type} (deps : Deps ε κ) (view : κ → Resources) : Prop where
  setRlimit : ∀ k k', deps.setRlimit k = .ok () k' → view k' = view k
  linkByName : ∀ name k i k', deps.linkByName name k = .ok i k' →
    view k' = view k ∧ (view k).link name = some i
  newHandle : ∀ k h k', deps.newHandle k = .ok h k' →
    view k' = { view k with handles := h :: (view k).handles }
  loadProbeObjects : ∀ k o k', deps.loadProbeObjects k = .ok o k' →
    view k' = { view k with objects := o :: (view k).objects }
  qdiscAdd : ∀ h q k k', deps.qdiscAdd h q k = .ok () k' →
    view k' = (view k).setQdisc q.attrs.linkIndex (some q)
  qdiscAdd_error : ∀ h q k e k', deps.qdiscAdd h q k = .error e k' → view k' = view k
  qdiscReplace : ∀ h q k k', deps.qdiscReplace h q k = .ok () k' →
    view k' = (view k).setQdisc q.attrs.linkIndex (some q)
  /-- The filters go with the qdisc. -/
  qdiscDel : ∀ h q k k', deps.qdiscDel h q k = .ok () k' →
    view k' = ((view k).setQdisc q.attrs.linkIndex none).setFilters q.attrs.linkIndex []
  filterAdd : ∀ h f k k', deps.filterAdd h f k = .ok () k' →
    view k' = (view k).setFilters f.attrs.linkIndex ((view k).filters f.attrs.linkIndex ++ [f])
  filterAdd_error : ∀ h f k e k', deps.filterAdd h f k = .error e k' → view k' = view k
  /-- At most the filter with the same attributes is replaced. -/
  filterReplace : ∀ h f k k', deps.filterReplace h f k = .ok () k' →
    ∃ fs, view k' = (view k).setFilters f.attrs.linkIndex fs ∧ f ∈ fs ∧
      ∀ g ∈ (view k).filters f.attrs.linkIndex, g.attrs ≠ f.attrs → g ∈ fs
  newReader : ∀ m k r k', deps.newReader m k = .ok r k' →
    view k' = { view k with readers := r :: (view k).readers }
  closeObjects : ∀ o k k', deps.closeObjects o k = .ok () k' →
    view k' = { view k with objects := (view k).objects.erase o }
  handleDelete : ∀ h k,
    view (deps.handleDelete h k) = { view k with handles := (view k).handles.erase h }

variable {ε κ : Type} {deps : Deps ε κ} {view : κ → Resources}

/-! ## One run -/

/-- A call of `Run` that is ended by cancellation, with no error from the release calls. -/
def session (deps : Deps ε κ) (decode : Sample → Go (Option Packet)) (k : κ)
    (as : List Pipeline.Action) : Option κ :=
  match Transition.run (Monitor.step deps decode) (Monitor.start deps k) as with
  | some (.returned none k') => some k'
  | _ => none

variable {decode : Sample → Go (Option Packet)} {k k' : κ} {hook : Probe} {reader : Nat}

/-- Set-up has succeeded when all of its calls have. -/
theorem setUp_ok (h : setUp deps k = .ok (some (hook, reader)) k') :
    ∃ k1 iface k2 k3, deps.setRlimit k = .ok () k1 ∧ deps.linkByName "eth0" k1 = .ok iface k2 ∧
      Installs deps iface k2 hook k3 ∧ deps.newReader hook.bpfObjects.pipe k3 = .ok reader k' := by
  simp only [setUp, bind_ok] at h
  obtain ⟨_, k1, limited, iface, k2, found, made, k3, ignored, rest⟩ := h
  cases made with
  | none =>
      rw [pure_ok] at rest
      exact absurd rest.1 (by simp)
  | some hook' =>
      simp only [bind_ok, pure_ok, Option.some.injEq, Prod.mk.injEq] at rest
      obtain ⟨_, _, opened, ⟨rfl, rfl⟩, rfl⟩ := rest
      have installed := newProbe_ok.mp (ignoring_ok_some.mp ignored)
      exact ⟨k1, iface, k2, k3, limited, found, installed, opened⟩

/-- After set-up the only call that is made is the last one, which closes the objects. -/
def Monitor.After (deps : Deps ε κ) (hook : Probe) (k : κ) (m : Monitor ε κ) : Prop :=
  (∃ reader s, m = .running hook reader k s) ∨
    (∃ k', deps.closeObjects hook.bpfObjects k = .ok () k' ∧ m = .returned none k') ∨
    ∃ err k', m = .returned (some err) k'

theorem Monitor.After.step {m m' : Monitor ε κ} {a : Pipeline.Action} (after : m.After deps hook k)
    (h : step deps decode m a = some m') : m'.After deps hook k := by
  obtain ⟨hook', reader', k'', s, next, rfl, _, left⟩ := step_cases h
  rcases after with ⟨reader, s, e⟩ | ⟨_, _, e⟩ | ⟨_, _, e⟩
  · obtain ⟨rfl, rfl, rfl, rfl⟩ := Monitor.running.inj e
    exact left.imp (fun e => ⟨_, _, e⟩) (Or.imp id fun ⟨err, k', _, e⟩ => ⟨err, k', e⟩)
  · contradiction
  · contradiction

theorem session_eq_some {as : List Pipeline.Action} (h : session deps decode k as = some k') :
    ∃ hook reader m, setUp deps k = .ok (some (hook, reader)) m ∧
      deps.closeObjects hook.bpfObjects m = .ok () k' := by
  simp only [session] at h
  split at h
  next k'' run =>
    obtain rfl := Option.some.inj h
    cases ready : setUp deps k with
    | error err m =>
        rw [Monitor.start, ready] at run
        have still := Transition.run_stuck (fun _ => rfl) run
        exact absurd (Monitor.returned.inj still).1 (by simp)
    | ok made m =>
        cases made with
        | none =>
            rw [Monitor.start, ready] at run
            have still := Transition.run_stuck (fun _ => rfl) run
            contradiction
        | some both =>
            obtain ⟨hook, reader⟩ := both
            rw [Monitor.start, ready] at run
            have after : Monitor.After deps hook m (.returned none k'') :=
              Transition.run_invariant (fun _ _ _ => Monitor.After.step)
                (.inl ⟨reader, Pipeline.start, rfl⟩) run
            rcases after with ⟨_, _, e⟩ | ⟨_, closed, e⟩ | ⟨_, _, e⟩
            · contradiction
            · obtain ⟨_, rfl⟩ := Monitor.returned.inj e
              exact ⟨hook, reader, m, rfl, closed⟩
            · have := (Monitor.returned.inj e).1
              contradiction
  next => contradiction

/-- What set-up acquires, from `v` to `w`. -/
structure Acquires (v w : Resources) (hook : Probe) (reader : Nat) : Prop where
  monitored : v.link "eth0" = some hook.iface
  qdisc : hook.qdisc = clsactOn hook.iface
  resources : ∃ fs,
    w =
      { v with
        qdisc := Function.update v.qdisc hook.iface (some hook.qdisc)
        filters := Function.update v.filters hook.iface fs
        handles := hook.handle :: v.handles
        objects := hook.bpfObjects :: v.objects
        readers := reader :: v.readers } ∧
      ∀ f ∈ probeFilters hook.iface hook.bpfObjects, ∃ g ∈ fs, g.attrs = f.attrs

theorem probeFilters_linkIndex {iface : Nat} {objects : ProbeObjects} {f : BpfFilter}
    (h : f ∈ probeFilters iface objects) : f.attrs.linkIndex = iface := by
  simp only [probeFilters, List.mem_cons, List.not_mem_nil, or_false] at h
  rcases h with rfl | rfl | rfl | rfl <;> rfl

/-- Whichever way a qdisc is put on a link, it is there. -/
theorem Deps.Lawful.putQdisc (lawful : deps.Lawful view) {h : Nat} {q : ClsAct}
    (put : EitherOk (deps.qdiscAdd h q) (deps.qdiscReplace h q) () k k') :
    view k' = (view k).setQdisc q.attrs.linkIndex (some q) := by
  rcases put with added | ⟨e, m, failed, replaced⟩
  · exact lawful.qdiscAdd h q k k' added
  · rw [lawful.qdiscReplace h q m k' replaced, lawful.qdiscAdd_error h q k e m failed]

/-- Whichever way a filter is put on a link, those with other attributes stay. -/
theorem Deps.Lawful.putFilter (lawful : deps.Lawful view) {h : Nat} {f : BpfFilter}
    (put : EitherOk (deps.filterAdd h f) (deps.filterReplace h f) () k k') :
    ∃ fs, view k' = (view k).setFilters f.attrs.linkIndex fs ∧ f ∈ fs ∧
      ∀ g ∈ (view k).filters f.attrs.linkIndex, g.attrs ≠ f.attrs → g ∈ fs := by
  rcases put with added | ⟨e, m, failed, replaced⟩
  · exact ⟨_, lawful.filterAdd h f k k' added, by simp, fun g hg _ => by simp [hg]⟩
  · have := lawful.filterReplace h f m k' replaced
    rwa [lawful.filterAdd_error h f k e m failed] at this

/-- The filters that are put on a link one after the other are all there in the end, if none
of them replaces another. -/
theorem Deps.Lawful.putFilters (lawful : deps.Lawful view) {h i : Nat}
    {filters : List BpfFilter} (index : ∀ f ∈ filters, f.attrs.linkIndex = i)
    (distinct : filters.Pairwise fun f g => f.attrs ≠ g.attrs)
    (put : Chain (fun f => EitherOk (deps.filterAdd h f) (deps.filterReplace h f) ())
      filters k k') :
    ∃ fs, view k' = (view k).setFilters i fs ∧ (∀ f ∈ filters, f ∈ fs) ∧
      ∀ g ∈ (view k).filters i, (∀ f ∈ filters, g.attrs ≠ f.attrs) → g ∈ fs := by
  induction put with
  | @nil s => exact ⟨(view s).filters i, by simp, fun f hf => by contradiction, fun g hg _ => hg⟩
  | @cons f filters s m t first _ ih =>
      obtain ⟨gs, hm, here, stays⟩ := lawful.putFilter first
      obtain ⟨others, distinct⟩ := List.pairwise_cons.mp distinct
      obtain ⟨fs, ht, later, kept⟩ :=
        ih (fun f' hf' => index f' (List.mem_cons_of_mem f hf')) distinct
      rw [index f List.mem_cons_self] at hm stays
      rw [hm, Resources.filters_setFilters] at kept
      refine ⟨fs, by rw [ht, hm, Resources.setFilters_setFilters], ?_, ?_⟩
      · intro f' hf'
        rcases List.mem_cons.mp hf' with rfl | hf'
        · exact kept f' here others
        · exact later f' hf'
      · intro g hg apart
        exact kept g (stays g hg (apart f List.mem_cons_self)) fun f' hf' =>
          apart f' (List.mem_cons_of_mem f hf')

theorem probeFilters_distinct (iface : Nat) (objects : ProbeObjects) :
    (probeFilters iface objects).Pairwise fun f g => f.attrs ≠ g.attrs := by
  simp [probeFilters, bpfFilter, handleMinIngress, handleMinEgress, ethPIp, ethPIpv6]

/-- Set-up acquires one of each kind. -/
theorem setUp_acquires (lawful : deps.Lawful view)
    (h : setUp deps k = .ok (some (hook, reader)) k') :
    Acquires (view k) (view k') hook reader := by
  obtain ⟨k1, iface, k2, k3, limited, found, installed, opened⟩ := setUp_ok h
  obtain ⟨rfl, qdisc, filters, m1, m2, m3, gotHandle, loaded, putQdisc, putFilters⟩ := installed
  obtain ⟨sameLink, monitored⟩ := lawful.linkByName _ _ _ _ found
  have index : ∀ f ∈ hook.filters, f.attrs.linkIndex = hook.iface := fun f hf =>
    probeFilters_linkIndex (filters ▸ hf)
  have distinct : hook.filters.Pairwise fun f g => f.attrs ≠ g.attrs := by
    rw [filters]
    exact probeFilters_distinct _ _
  obtain ⟨fs, hfs, here, _⟩ := lawful.putFilters index distinct putFilters
  have linkIndex : hook.qdisc.attrs.linkIndex = hook.iface := by
    rw [qdisc]
    rfl
  rw [lawful.setRlimit _ _ limited] at sameLink monitored
  rw [lawful.putQdisc putQdisc, lawful.loadProbeObjects _ _ _ loaded,
    lawful.newHandle _ _ _ gotHandle, sameLink, linkIndex] at hfs
  refine ⟨monitored, qdisc, fs, ?_, fun f hf => ⟨f, here f (filters ▸ hf), rfl⟩⟩
  rw [lawful.newReader _ _ _ _ opened, hfs]
  rfl

/-- What a run leaves behind on the interface with index `i`, from `v` to `w`. -/
structure LeavesBehind (v w : Resources) (i : Nat) : Prop where
  monitored : v.link "eth0" = some i
  link : w.link = v.link
  qdisc : w.qdisc = Function.update v.qdisc i (some (clsactOn i))
  /-- One filter for each of those that were installed. -/
  filters : ∃ objects, ∀ f ∈ probeFilters i objects, ∃ g ∈ w.filters i, g.attrs = f.attrs
  elsewhere : ∀ j, j ≠ i → w.filters j = v.filters j
  handles : ∃ h, w.handles = h :: v.handles
  objects : w.objects = v.objects
  readers : ∃ r, w.readers = r :: v.readers

/-- A run that is cancelled closes the BPF objects, and leaves the rest. -/
theorem session_leaves (lawful : deps.Lawful view) {as : List Pipeline.Action}
    (h : session deps decode k as = some k') : ∃ i, LeavesBehind (view k) (view k') i := by
  obtain ⟨hook, reader, m, ready, closed⟩ := session_eq_some h
  obtain ⟨monitored, qdisc, fs, hm, covered⟩ := setUp_acquires lawful ready
  have hk' := lawful.closeObjects _ _ _ closed
  rw [hm] at hk'
  refine ⟨hook.iface, monitored, ?_, ?_, ⟨hook.bpfObjects, ?_⟩, ?_, ⟨hook.handle, ?_⟩, ?_,
    ⟨reader, ?_⟩⟩ <;> rw [hk']
  · rw [qdisc]
  · simpa using covered
  · intro j hj
    exact Function.update_of_ne hj _ _
  · exact List.erase_cons_head _ _

/-- `Close` would release everything but the reader. -/
theorem close_leaves (lawful : deps.Lawful view) {m : κ}
    (ready : setUp deps k = .ok (some (hook, reader)) m) (closed : hook.close deps m = .ok () k')
    (noQdisc : (view k).qdisc hook.iface = none) (noFilters : (view k).filters hook.iface = []) :
    view k' = { view k with readers := reader :: (view k).readers } := by
  obtain ⟨_, qdisc, fs, hm, _⟩ := setUp_acquires lawful ready
  simp only [Probe.close, bind_ok, modify_ok] at closed
  obtain ⟨_, m1, deleted, _, _, rfl, objects⟩ := closed
  have linkIndex : hook.qdisc.attrs.linkIndex = hook.iface := by
    rw [qdisc]
    rfl
  have qdiscBack : Function.update (view k).qdisc hook.iface none = (view k).qdisc := by
    rw [← noQdisc, Function.update_eq_self]
  have filtersBack : Function.update (view k).filters hook.iface [] = (view k).filters := by
    rw [← noFilters, Function.update_eq_self]
  rw [lawful.closeObjects _ _ _ objects, lawful.handleDelete, lawful.qdiscDel _ _ _ _ deleted, hm,
    linkIndex]
  simp only [Resources.setQdisc, Resources.setFilters, Function.update_idem, List.erase_cons_head,
    qdiscBack, filtersBack]

/-! ## One run after the other -/

/-- The system is as it was. -/
structure NoTrace (v w : Resources) : Prop where
  qdisc : w.qdisc = v.qdisc
  filters : w.filters = v.filters
  handles : w.handles = v.handles
  objects : w.objects = v.objects
  readers : w.readers = v.readers

/-- Handles and readers add up, objects do not. -/
theorem sessions_leave (lawful : deps.Lawful view) {runs : List (List Pipeline.Action)}
    (h : Transition.run (session deps decode) k runs = some k') :
    (view k').handles.length = (view k).handles.length + runs.length ∧
      (view k').readers.length = (view k).readers.length + runs.length ∧
      (view k').objects = (view k).objects := by
  induction runs generalizing k with
  | nil =>
      obtain rfl := Option.some.inj h
      exact ⟨rfl, rfl, rfl⟩
  | cons as runs ih =>
      obtain ⟨m, first, rest⟩ := Transition.run_cons_some.mp h
      obtain ⟨i, left⟩ := session_leaves lawful first
      obtain ⟨handle, handles⟩ := left.handles
      obtain ⟨reader, readers⟩ := left.readers
      obtain ⟨moreHandles, moreReaders, objects⟩ := ih rest
      refine ⟨?_, ?_, objects.trans left.objects⟩
      · rw [moreHandles, handles]
        simp only [List.length_cons]
        omega
      · rw [moreReaders, readers]
        simp only [List.length_cons]
        omega

/-- The qdisc of the first run stays. -/
theorem sessions_qdisc (lawful : deps.Lawful view) {as : List Pipeline.Action}
    {runs : List (List Pipeline.Action)}
    (h : Transition.run (session deps decode) k (as :: runs) = some k') :
    ∃ i, (view k).link "eth0" = some i ∧ (view k').qdisc i = some (clsactOn i) := by
  obtain ⟨m, first, rest⟩ := Transition.run_cons_some.mp h
  obtain ⟨i, left⟩ := session_leaves lawful first
  refine ⟨i, left.monitored, ?_⟩
  let stays (s : κ) : Prop := (view s).qdisc i = some (clsactOn i)
  have there : stays m := by
    change (view m).qdisc i = some (clsactOn i)
    rw [left.qdisc, Function.update_self]
  have keep (s : κ) (bs : List Pipeline.Action) (t : κ) (here : stays s)
      (next : session deps decode s bs = some t) : stays t := by
    obtain ⟨j, more⟩ := session_leaves lawful next
    change (view t).qdisc i = some (clsactOn i)
    rw [more.qdisc]
    by_cases same : i = j
    · rw [same, Function.update_self]
    · rw [Function.update_of_ne same]
      exact here
  have last : stays k' := Transition.run_invariant keep there rest
  exact last

/-- The system is as it was only if `Run` has not been called. -/
theorem noTrace_iff (lawful : deps.Lawful view) {runs : List (List Pipeline.Action)}
    (h : Transition.run (session deps decode) k runs = some k') :
    NoTrace (view k) (view k') ↔ runs = [] := by
  constructor
  · intro none
    have more := (sessions_leave lawful h).1
    rw [none.handles] at more
    exact List.eq_nil_of_length_eq_zero (by omega)
  · rintro rfl
    obtain rfl := Option.some.inj h
    exact ⟨rfl, rfl, rfl, rfl, rfl⟩

/-! ## A host -/

/-- Descriptors are numbered in order, and only a qdisc that exists cannot be added. -/
def hostDeps : Deps String Resources where
  setRlimit := pure ()
  linkByName := fun name v =>
    match v.link name with
    | some i => .ok i v
    | none => .error "Link not found" v
  newHandle := fun v => .ok v.handles.length { v with handles := v.handles.length :: v.handles }
  loadProbeObjects := fun v =>
    let o : ProbeObjects := ⟨2 * v.objects.length, 2 * v.objects.length + 1⟩
    .ok o { v with objects := o :: v.objects }
  qdiscAdd := fun _ q v =>
    if (v.qdisc q.attrs.linkIndex).isSome then .error "file exists" v
    else .ok () (v.setQdisc q.attrs.linkIndex (some q))
  qdiscReplace := fun _ q v => .ok () (v.setQdisc q.attrs.linkIndex (some q))
  qdiscDel := fun _ q v =>
    .ok () ((v.setQdisc q.attrs.linkIndex none).setFilters q.attrs.linkIndex [])
  filterAdd := fun _ f v =>
    .ok () (v.setFilters f.attrs.linkIndex (v.filters f.attrs.linkIndex ++ [f]))
  filterReplace := fun _ f v =>
    .ok () (v.setFilters f.attrs.linkIndex
      ((v.filters f.attrs.linkIndex).filter (fun g => g.attrs ≠ f.attrs) ++ [f]))
  newReader := fun _ v => .ok v.readers.length { v with readers := v.readers.length :: v.readers }
  closeObjects := fun o v => .ok () { v with objects := v.objects.erase o }
  handleDelete := fun h v => { v with handles := v.handles.erase h }

theorem hostDeps_lawful : hostDeps.Lawful id where
  setRlimit := by
    rintro v w ⟨⟩
    rfl
  linkByName := by
    intro name v i w h
    simp only [hostDeps] at h
    split at h
    next j found =>
      obtain ⟨rfl, rfl⟩ := EStateM.Result.ok.inj h
      exact ⟨rfl, found⟩
    next => contradiction
  newHandle := by
    rintro v h w ⟨⟩
    rfl
  loadProbeObjects := by
    rintro v o w ⟨⟩
    rfl
  qdiscAdd := by
    intro h q v w added
    simp only [hostDeps] at added
    split at added
    · contradiction
    · exact (EStateM.Result.ok.inj added).2.symm
  qdiscAdd_error := by
    intro h q v e w failed
    simp only [hostDeps] at failed
    split at failed
    · exact (EStateM.Result.error.inj failed).2.symm
    · contradiction
  qdiscReplace := by
    rintro h q v w ⟨⟩
    rfl
  qdiscDel := by
    rintro h q v w ⟨⟩
    rfl
  filterAdd := by
    rintro h f v w ⟨⟩
    rfl
  filterAdd_error := by
    intro h f v e w failed
    contradiction
  filterReplace := by
    rintro h f v w ⟨⟩
    refine ⟨_, rfl, by simp, fun g hg other => ?_⟩
    exact List.mem_append_left _ (List.mem_filter.mpr ⟨hg, by simpa using other⟩)
  newReader := by
    rintro m v r w ⟨⟩
    rfl
  closeObjects := by
    rintro o v w ⟨⟩
    rfl
  handleDelete := fun _ _ => rfl

/-- A host with one interface. -/
def freshHost : Resources where
  link := fun name => if name = "eth0" then some 2 else none
  qdisc := fun _ => none
  filters := fun _ => []
  handles := []
  objects := []
  readers := []

/-- `Run` is called twice, and cancelled each time. -/
def twoRuns : List (List Pipeline.Action) := [Pipeline.cancelledBetween, [.cancel, .done]]

def afterTwoRuns : Resources :=
  (Transition.run (session hostDeps unmarshalBinary) freshHost twoRuns).get (by decide +kernel)

theorem twoRuns_noTrace_iff : NoTrace freshHost afterTwoRuns ↔ twoRuns = [] := by
  have run : Transition.run (session hostDeps unmarshalBinary) freshHost twoRuns =
      some afterTwoRuns := (Option.some_get _).symm
  simpa only [id_eq] using noTrace_iff hostDeps_lawful run

/-- Each run leaves a handle and a reader, and four filters more on the interface. -/
theorem twoRuns_refute_noTrace :
    ¬ ∀ (ε κ : Type) (deps : Deps ε κ) (view : κ → Resources)
      (decode : Sample → Go (Option Packet)) (k k' : κ) (runs : List (List Pipeline.Action)),
      deps.Lawful view →
      (∀ i, (view k).link "eth0" = some i → (view k).qdisc i = none) →
      Transition.run (session deps decode) k runs = some k' → NoTrace (view k) (view k') := by
  intro claimed
  have run : Transition.run (session hostDeps unmarshalBinary) freshHost twoRuns =
      some afterTwoRuns := (Option.some_get _).symm
  have noTrace := claimed String Resources hostDeps id unmarshalBinary freshHost afterTwoRuns
    twoRuns hostDeps_lawful (fun _ _ => rfl) run
  exact absurd noTrace.handles (by decide +kernel)

example : afterTwoRuns.handles = [1, 0] ∧ afterTwoRuns.readers = [1, 0] ∧
    afterTwoRuns.objects = [] ∧ (afterTwoRuns.filters 2).length = 8 := by decide +kernel

end Xcnf.Flow
