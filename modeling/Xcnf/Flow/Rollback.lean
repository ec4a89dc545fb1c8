import Xcnf.Flow.Shutdown

/-!
# What `newProbe` leaves behind when it fails

`newProbe` opens a netlink handle, loads the BPF objects, and puts a qdisc and four
filters on the link. When one of these calls fails it returns the error and the nil
pointer, and undoes nothing: what the calls before have acquired stays, and there is
nobody who could release it (`Stops.leaves`). So whenever a handle has been opened, a
failing `newProbe` leaves the system other than it was (`rollsBack_iff`).
-/

namespace Xcnf.Flow

open Effect

/-- A failing call changes nothing, beside what `Deps.Lawful` has. Closing the objects may
stop halfway, but does not touch the links. -/
structure Deps.FailsCleanly {ε κ : Type} (deps : Deps ε κ) (view : κ → Resources) : Prop where
  setRlimit : ∀ k e k', deps.setRlimit k = .error e k' → view k' = view k
  linkByName : ∀ name k e k', deps.linkByName name k = .error e k' → view k' = view k
  newHandle : ∀ k e k', deps.newHandle k = .error e k' → view k' = view k
  loadProbeObjects : ∀ k e k', deps.loadProbeObjects k = .error e k' → view k' = view k
  qdiscReplace : ∀ h q k e k', deps.qdiscReplace h q k = .error e k' → view k' = view k
  filterReplace : ∀ h f k e k', deps.filterReplace h f k = .error e k' → view k' = view k
  newReader : ∀ m k e k', deps.newReader m k = .error e k' → view k' = view k
  closeObjects : ∀ o k e k', deps.closeObjects o k = .error e k' →
    (view k').qdisc = (view k).qdisc ∧ (view k').filters = (view k).filters

variable {ε κ : Type} {deps : Deps ε κ} {view : κ → Resources}
variable {iface : Nat} {k k' : κ} {err : ε}

/-! ## Where it stops -/

/-- The call of `newProbe` that fails, and what has been acquired before. -/
inductive Stops (deps : Deps ε κ) (iface : Nat) (k : κ) (err : ε) (k' : κ) : Prop where
  | handle (failed : deps.newHandle k = .error err k')
  | objects {h : Nat} {k1 : κ} (gotHandle : deps.newHandle k = .ok h k1)
      (failed : deps.loadProbeObjects k1 = .error err k')
  | qdisc {h : Nat} {o : ProbeObjects} {k1 k2 : κ} (gotHandle : deps.newHandle k = .ok h k1)
      (loaded : deps.loadProbeObjects k1 = .ok o k2)
      (failed : BothFail (deps.qdiscAdd h (clsactOn iface)) (deps.qdiscReplace h (clsactOn iface))
        err k2 k')
  | filters {h : Nat} {o : ProbeObjects} {k1 k2 k3 m : κ} {done rest : List BpfFilter}
      {f : BpfFilter} (gotHandle : deps.newHandle k = .ok h k1)
      (loaded : deps.loadProbeObjects k1 = .ok o k2)
      (putQdisc : EitherOk (deps.qdiscAdd h (clsactOn iface)) (deps.qdiscReplace h (clsactOn iface))
        () k2 k3)
      (split : probeFilters iface o = done ++ f :: rest)
      (putFilters : Chain (fun f => EitherOk (deps.filterAdd h f) (deps.filterReplace h f) ())
        done k3 m)
      (failed : BothFail (deps.filterAdd h f) (deps.filterReplace h f) err m k')

theorem createQdisc_error {handle : Nat} (h : createQdisc deps iface handle k = .error err k') :
    BothFail (deps.qdiscAdd handle (clsactOn iface)) (deps.qdiscReplace handle (clsactOn iface))
      err k k' := by
  rw [createQdisc, bind_error, orElse_error] at h
  rcases h with failed | ⟨_, _, _, returned⟩
  · exact failed
  · exact absurd returned pure_error

theorem createFilters_error {handle : Nat} {objects : ProbeObjects}
    (h : createFilters deps iface handle objects k = .error err k') :
    ∃ done f rest m, probeFilters iface objects = done ++ f :: rest ∧
      Chain (fun f => EitherOk (deps.filterAdd handle f) (deps.filterReplace handle f) ())
        done k m ∧
      BothFail (deps.filterAdd handle f) (deps.filterReplace handle f) err m k' := by
  rw [createFilters, bind_error] at h
  rcases h with failed | ⟨_, _, _, returned⟩
  · obtain ⟨done, f, rest, m, split, chain, last⟩ := each_error failed
    simp only [orElse_ok] at chain
    exact ⟨done, f, rest, m, split, chain, orElse_error.mp last⟩
  · exact absurd returned pure_error

theorem newProbe_error (h : newProbe deps iface k = .error err k') :
    Stops deps iface k err k' := by
  rw [newProbe, bind_error] at h
  rcases h with failed | ⟨handle, k1, gotHandle, h⟩
  · exact .handle failed
  rw [bind_error] at h
  rcases h with failed | ⟨objects, k2, loaded, h⟩
  · exact .objects gotHandle failed
  rw [bind_error] at h
  rcases h with failed | ⟨qdisc, k3, put, h⟩
  · exact .qdisc gotHandle loaded (createQdisc_error failed)
  obtain ⟨rfl, putQdisc⟩ := createQdisc_ok.mp put
  rw [bind_error] at h
  rcases h with failed | ⟨_, _, _, returned⟩
  · obtain ⟨done, f, rest, m, split, chain, last⟩ := createFilters_error failed
    exact .filters gotHandle loaded putQdisc split chain last
  · exact absurd returned pure_error

/-! ## What it leaves -/

theorem Deps.FailsCleanly.qdiscFailed (clean : deps.FailsCleanly view) (lawful : deps.Lawful view)
    {h : Nat} {q : ClsAct}
    (failed : BothFail (deps.qdiscAdd h q) (deps.qdiscReplace h q) err k k') :
    view k' = view k := by
  obtain ⟨e, m, first, second⟩ := failed
  rw [clean.qdiscReplace h q m err k' second, lawful.qdiscAdd_error h q k e m first]

theorem Deps.FailsCleanly.filterFailed (clean : deps.FailsCleanly view) (lawful : deps.Lawful view)
    {h : Nat} {f : BpfFilter}
    (failed : BothFail (deps.filterAdd h f) (deps.filterReplace h f) err k k') :
    view k' = view k := by
  obtain ⟨e, m, first, second⟩ := failed
  rw [clean.filterReplace h f m err k' second, lawful.filterAdd_error h f k e m first]

/-- What a failing `newProbe` has acquired and not released, from `v` to `w`. -/
inductive Leaves (iface : Nat) (v : Resources) : Resources → Prop where
  | handle (h : Nat) : Leaves iface v { v with handles := h :: v.handles }
  | objects (h : Nat) (o : ProbeObjects) :
      Leaves iface v { v with handles := h :: v.handles, objects := o :: v.objects }
  /-- The qdisc, and the filters that have been put on the link. -/
  | filters (h : Nat) (o : ProbeObjects) {done fs : List BpfFilter}
      (front : done <+: probeFilters iface o) (here : ∀ f ∈ done, f ∈ fs) :
      Leaves iface v
        { v with
          qdisc := Function.update v.qdisc iface (some (clsactOn iface))
          filters := Function.update v.filters iface fs
          handles := h :: v.handles
          objects := o :: v.objects }

theorem Leaves.handles {v w : Resources} (left : Leaves iface v w) :
    ∃ h, w.handles = h :: v.handles := by
  cases left with
  | handle h => exact ⟨h, rfl⟩
  | objects h o => exact ⟨h, rfl⟩
  | filters h o front here => exact ⟨h, rfl⟩

/-- Without a handle nothing is left, and with one it is. -/
theorem Stops.leaves (lawful : deps.Lawful view) (clean : deps.FailsCleanly view)
    (h : Stops deps iface k err k') :
    (deps.newHandle k = .error err k' ∧ view k' = view k) ∨ Leaves iface (view k) (view k') := by
  cases h with
  | handle failed => exact .inl ⟨failed, clean.newHandle k err k' failed⟩
  | objects gotHandle failed =>
      right
      rw [clean.loadProbeObjects _ err k' failed, lawful.newHandle _ _ _ gotHandle]
      exact .handle _
  | qdisc gotHandle loaded failed =>
      right
      rw [clean.qdiscFailed lawful failed, lawful.loadProbeObjects _ _ _ loaded,
        lawful.newHandle _ _ _ gotHandle]
      exact .objects _ _
  | @filters h o k1 k2 k3 m done rest f gotHandle loaded putQdisc split putFilters failed =>
      have front : done <+: probeFilters iface o := ⟨f :: rest, split.symm⟩
      obtain ⟨fs, hm, here, _⟩ := lawful.putFilters
        (fun g hg => probeFilters_linkIndex (front.subset hg))
        ((probeFilters_distinct iface o).sublist front.sublist) putFilters
      have acquired : view k' =
          { view k with
            qdisc := Function.update (view k).qdisc iface (some (clsactOn iface))
            filters := Function.update (view k).filters iface fs
            handles := h :: (view k).handles
            objects := o :: (view k).objects } := by
        rw [clean.filterFailed lawful failed, hm, lawful.putQdisc putQdisc,
          lawful.loadProbeObjects _ _ _ loaded, lawful.newHandle _ _ _ gotHandle]
        rfl
      rw [acquired]
      exact .inr (.filters h o front here)

/-- Qdiscs and filters are as they were, and no handle or object is left open. -/
structure Undone (v w : Resources) : Prop where
  qdisc : w.qdisc = v.qdisc
  filters : w.filters = v.filters
  handles : w.handles = v.handles
  objects : w.objects = v.objects

/-- With an error, everything is undone. -/
def RollsBack (deps : Deps ε κ) (view : κ → Resources) (iface : Nat) (k : κ) : Prop :=
  ∀ err k', newProbe deps iface k = .error err k' → Undone (view k) (view k')

/-- None of the calls fails for good: what cannot be added can be replaced. -/
def CallsSucceed (deps : Deps ε κ) (iface : Nat) (k : κ) : Prop :=
  ∃ h k1 o k2 k3 k4, deps.newHandle k = .ok h k1 ∧ deps.loadProbeObjects k1 = .ok o k2 ∧
    EitherOk (deps.qdiscAdd h (clsactOn iface)) (deps.qdiscReplace h (clsactOn iface)) () k2 k3 ∧
    Chain (fun f => EitherOk (deps.filterAdd h f) (deps.filterReplace h f) ())
      (probeFilters iface o) k3 k4

theorem callsSucceed_iff :
    CallsSucceed deps iface k ↔ ∃ hook k', newProbe deps iface k = .ok hook k' := by
  constructor
  · rintro ⟨h, k1, o, k2, k3, k4, gotHandle, loaded, putQdisc, putFilters⟩
    exact ⟨⟨iface, h, clsactOn iface, o, probeFilters iface o⟩, k4, newProbe_ok.mpr
      ⟨rfl, rfl, rfl, k1, k2, k3, gotHandle, loaded, putQdisc, putFilters⟩⟩
  · rintro ⟨hook, k', made⟩
    obtain ⟨rfl, qdisc, filters, k1, k2, k3, gotHandle, loaded, putQdisc, putFilters⟩ :=
      newProbe_ok.mp made
    rw [qdisc] at putQdisc
    rw [filters] at putFilters
    exact ⟨_, k1, _, k2, k3, k', gotHandle, loaded, putQdisc, putFilters⟩

/-- `newProbe` rolls back only if it has no handle to release, or nothing fails. -/
theorem rollsBack_iff (lawful : deps.Lawful view) (clean : deps.FailsCleanly view) (iface : Nat)
    (k : κ) :
    RollsBack deps view iface k ↔
      (∃ err k1, deps.newHandle k = .error err k1) ∨ CallsSucceed deps iface k := by
  constructor
  · intro rollsBack
    cases made : newProbe deps iface k with
    | ok hook k' => exact .inr (callsSucceed_iff.mpr ⟨hook, k', made⟩)
    | error err k' =>
        rcases (newProbe_error made).leaves lawful clean with ⟨failed, _⟩ | left
        · exact .inl ⟨err, k', failed⟩
        · obtain ⟨h, handles⟩ := left.handles
          rw [(rollsBack err k' made).handles] at handles
          exact absurd handles.symm (List.cons_ne_self h _)
  · rintro (⟨e, k1, failed⟩ | succeed) err k' made
    · rw [newProbe, bind_apply, failed] at made
      obtain ⟨rfl, rfl⟩ := EStateM.Result.error.inj made
      have same := clean.newHandle k e k1 failed
      exact ⟨by rw [same], by rw [same], by rw [same], by rw [same]⟩
    · obtain ⟨hook, k1, done⟩ := callsSucceed_iff.mp succeed
      rw [done] at made
      contradiction

/-! ## A host without IPv6 -/

theorem hostDeps_failsCleanly : hostDeps.FailsCleanly id where
  setRlimit := by
    intro v e w failed
    contradiction
  linkByName := by
    intro name v e w failed
    simp only [hostDeps] at failed
    split at failed
    · contradiction
    · exact (EStateM.Result.error.inj failed).2.symm
  newHandle := by
    intro v e w failed
    contradiction
  loadProbeObjects := by
    intro v e w failed
    contradiction
  qdiscReplace := by
    intro h q v e w failed
    contradiction
  filterReplace := by
    intro h f v e w failed
    contradiction
  newReader := by
    intro m v e w failed
    contradiction
  closeObjects := by
    intro o v e w failed
    contradiction

/-- Filters for IPv6 are refused. -/
def noIpv6Deps : Deps String Resources :=
  { hostDeps with
    filterAdd := fun h f v =>
      if f.attrs.protocol = ethPIpv6 then .error "protocol not supported" v
      else hostDeps.filterAdd h f v
    filterReplace := fun h f v =>
      if f.attrs.protocol = ethPIpv6 then .error "protocol not supported" v
      else hostDeps.filterReplace h f v }

theorem noIpv6Deps_lawful : noIpv6Deps.Lawful id :=
  { hostDeps_lawful with
    filterAdd := by
      intro h f v w added
      simp only [noIpv6Deps] at added
      split at added
      · contradiction
      · exact hostDeps_lawful.filterAdd h f v w added
    filterAdd_error := by
      intro h f v e w failed
      simp only [noIpv6Deps] at failed
      split at failed
      · exact (EStateM.Result.error.inj failed).2.symm
      · exact hostDeps_lawful.filterAdd_error h f v e w failed
    filterReplace := by
      intro h f v w replaced
      simp only [noIpv6Deps] at replaced
      split at replaced
      · contradiction
      · exact hostDeps_lawful.filterReplace h f v w replaced }

theorem noIpv6Deps_failsCleanly : noIpv6Deps.FailsCleanly id :=
  { hostDeps_failsCleanly with
    filterReplace := by
      intro h f v e w failed
      simp only [noIpv6Deps] at failed
      split at failed
      · exact (EStateM.Result.error.inj failed).2.symm
      · exact hostDeps_failsCleanly.filterReplace h f v e w failed }

theorem noIpv6_rollsBack_iff :
    RollsBack noIpv6Deps id 2 freshHost ↔
      (∃ err v, noIpv6Deps.newHandle freshHost = .error err v) ∨
        CallsSucceed noIpv6Deps 2 freshHost :=
  rollsBack_iff noIpv6Deps_lawful noIpv6Deps_failsCleanly 2 freshHost

/-- The handle, the objects, the qdisc and the filters for IPv4 stay. -/
theorem noIpv6_refutes_rollsBack :
    ¬ ∀ (ε κ : Type) (deps : Deps ε κ) (view : κ → Resources) (iface : Nat) (k : κ),
      deps.Lawful view → deps.FailsCleanly view → RollsBack deps view iface k := by
  intro claimed
  have rollsBack := claimed String Resources noIpv6Deps id 2 freshHost noIpv6Deps_lawful
    noIpv6Deps_failsCleanly
  have failed : newProbe noIpv6Deps 2 freshHost =
      .error "protocol not supported" (final (newProbe noIpv6Deps 2 freshHost)) := rfl
  exact absurd (rollsBack _ _ failed).handles (by decide +kernel)

example : (final (newProbe noIpv6Deps 2 freshHost)).qdisc 2 = some (clsactOn 2) ∧
    ((final (newProbe noIpv6Deps 2 freshHost)).filters 2).length = 2 := by decide +kernel

end Xcnf.Flow
