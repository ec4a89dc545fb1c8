import Xcnf.Flow.Rollback

/-!
# The interface that is monitored

`Run` is given a link, which it replaces by the one called `eth0`. The calls that change a
qdisc or a filter are noted (`Deps.journal`), by the link that they change. All that `Run`
does stays on the link that it was given only if this is `eth0`, or if set-up stops before
there is anything on a link (`touchesOnly_iff`).
-/

namespace Xcnf.Flow

open Effect

/-! ## The calls that change a link -/

/-- The calls, with the links whose qdisc or filters have been changed. -/
def Deps.journal {ε κ : Type} (deps : Deps ε κ) : Deps ε (κ × List Nat) where
  setRlimit := noting [] deps.setRlimit
  linkByName := fun name => noting [] (deps.linkByName name)
  newHandle := noting [] deps.newHandle
  loadProbeObjects := noting [] deps.loadProbeObjects
  qdiscAdd := fun h q => noting [q.attrs.linkIndex] (deps.qdiscAdd h q)
  qdiscReplace := fun h q => noting [q.attrs.linkIndex] (deps.qdiscReplace h q)
  qdiscDel := fun h q => noting [q.attrs.linkIndex] (deps.qdiscDel h q)
  filterAdd := fun h f => noting [f.attrs.linkIndex] (deps.filterAdd h f)
  filterReplace := fun h f => noting [f.attrs.linkIndex] (deps.filterReplace h f)
  newReader := fun m => noting [] (deps.newReader m)
  closeObjects := fun o => noting [] (deps.closeObjects o)
  handleDelete := fun h p => (deps.handleDelete h p.1, p.2)

variable {ε κ : Type} {deps : Deps ε κ} {view : κ → Resources} {k : κ} {iface : Nat}

theorem createQdisc_notes (deps : Deps ε κ) (iface handle : Nat) :
    Notes (createQdisc deps.journal iface handle) (createQdisc deps iface handle) :=
  ((Notes.noting _ _).orElse (.noting _ _)).bind fun _ => .pure _

theorem createFilters_notes (deps : Deps ε κ) (iface handle : Nat) (objects : ProbeObjects) :
    Notes (createFilters deps.journal iface handle objects)
      (createFilters deps iface handle objects) :=
  (Notes.each (fun _ => (Notes.noting _ _).orElse (.noting _ _)) _).bind fun _ => .pure _

theorem newProbe_notes (deps : Deps ε κ) (iface : Nat) :
    Notes (newProbe deps.journal iface) (newProbe deps iface) :=
  (Notes.noting _ _).bind fun handle =>
  (Notes.noting _ _).bind fun objects =>
  (createQdisc_notes deps iface handle).bind fun _ =>
  (createFilters_notes deps iface handle objects).bind fun _ =>
  .pure _

theorem setUp_notes (deps : Deps ε κ) : Notes (setUp deps.journal) (setUp deps) := by
  refine (Notes.noting _ _).bind fun _ => (Notes.noting _ _).bind fun iface => ?_
  refine (newProbe_notes deps iface).ignoring.bind fun made => ?_
  cases made with
  | none => exact .pure _
  | some hook => exact (Notes.noting _ _).bind fun _ => .pure _

namespace Monitor

variable {decode : Sample → Go (Option Packet)}

/-- The state without the notes. -/
def forget : Monitor ε (κ × List Nat) → Monitor ε κ
  | .running hook reader p s => .running hook reader p.1 s
  | .returned err p => .returned err p.1
  | .panicked p => .panicked p.1

theorem start_forget (deps : Deps ε κ) (p : κ × List Nat) :
    (start deps.journal p).forget = start deps p.1 := by
  have same := setUp_notes deps p
  rw [start, start, ← same]
  cases setUp deps.journal p with
  | error err q => rfl
  | ok made q => cases made <;> rfl

theorem step_forget (m : Monitor ε (κ × List Nat)) (a : Pipeline.Action) :
    step deps decode m.forget a = (step deps.journal decode m a).map forget := by
  cases m with
  | returned | panicked => rfl
  | running hook reader p s =>
      have same : Effect.forget (deps.journal.closeObjects hook.bpfObjects p) =
          deps.closeObjects hook.bpfObjects p.1 := Notes.noting [] _ p
      simp only [forget, step]
      cases Pipeline.step decode s a with
      | none => rfl
      | some next =>
          dsimp only
          cases next.main with
          | selecting | handling | calculating | crashed => rfl
          | returned =>
              rw [← same]
              cases deps.journal.closeObjects hook.bpfObjects p <;> rfl

theorem run_forget (m : Monitor ε (κ × List Nat)) (as : List Pipeline.Action) :
    Transition.run (step deps decode) m.forget as =
      (Transition.run (step deps.journal decode) m as).map forget := by
  induction as generalizing m with
  | nil => rfl
  | cons a as ih =>
      rw [Transition.run_cons, Transition.run_cons, step_forget]
      cases step deps.journal decode m a with
      | none => rfl
      | some next => exact ih next

/-- `Run` does the same with the notes as without them. -/
theorem run_journal (k : κ) (as : List Pipeline.Action) :
    Transition.run (step deps decode) (start deps k) as =
      (Transition.run (step deps.journal decode) (start deps.journal (k, [])) as).map forget := by
  rw [← run_forget, start_forget]

end Monitor

/-! ## What the calls change -/

/-- Qdiscs and filters are the same. -/
structure SameLinks (v w : Resources) : Prop where
  qdisc : w.qdisc = v.qdisc
  filters : w.filters = v.filters

/-- Qdiscs and filters are the same on all links but one. -/
structure Elsewhere (i : Nat) (v w : Resources) : Prop where
  qdisc : ∀ j, j ≠ i → w.qdisc j = v.qdisc j
  filters : ∀ j, j ≠ i → w.filters j = v.filters j

theorem SameLinks.refl (v : Resources) : SameLinks v v := ⟨rfl, rfl⟩

theorem Elsewhere.refl (i : Nat) (v : Resources) : Elsewhere i v v :=
  ⟨fun _ _ => rfl, fun _ _ => rfl⟩

theorem SameLinks.trans {u v w : Resources} (first : SameLinks u v) (second : SameLinks v w) :
    SameLinks u w :=
  ⟨second.qdisc.trans first.qdisc, second.filters.trans first.filters⟩

theorem SameLinks.elsewhere {v w : Resources} (h : SameLinks v w) (i : Nat) : Elsewhere i v w :=
  ⟨fun _ _ => by rw [h.qdisc], fun _ _ => by rw [h.filters]⟩

theorem Elsewhere.trans {u v w : Resources} {i : Nat} (first : Elsewhere i u v)
    (second : Elsewhere i v w) : Elsewhere i u w where
  qdisc := fun j hj => (second.qdisc j hj).trans (first.qdisc j hj)
  filters := fun j hj => (second.filters j hj).trans (first.filters j hj)

theorem Resources.setQdisc_elsewhere (v : Resources) (i : Nat) (q : Option ClsAct) :
    Elsewhere i v (v.setQdisc i q) :=
  ⟨fun _ hj => Function.update_of_ne hj _ _, fun _ _ => rfl⟩

theorem Resources.setFilters_elsewhere (v : Resources) (i : Nat) (fs : List BpfFilter) :
    Elsewhere i v (v.setFilters i fs) :=
  ⟨fun _ _ => rfl, fun _ hj => Function.update_of_ne hj _ _⟩

/-- What a call that succeeds does to the resources, and one that fails, which does nothing. -/
theorem final_related {α : Type} {R : Resources → Resources → Prop} {x : Call ε κ α}
    (refl : ∀ v, R v v) (ok : ∀ a k', x k = .ok a k' → R (view k) (view k'))
    (error : ∀ e k', x k = .error e k' → view k' = view k) :
    R (view k) (view (final (x k))) := by
  cases made : x k with
  | ok a k' => exact ok a k' made
  | error e k' =>
      change R (view k) (view k')
      rw [error e k' made]
      exact refl _

/-- Each call, failing or not, changes at most the link that it names. -/
structure Deps.Local (deps : Deps ε κ) (view : κ → Resources) : Prop where
  setRlimit : ∀ k, SameLinks (view k) (view (final (deps.setRlimit k)))
  linkByName : ∀ name k, SameLinks (view k) (view (final (deps.linkByName name k)))
  newHandle : ∀ k, SameLinks (view k) (view (final (deps.newHandle k)))
  loadProbeObjects : ∀ k, SameLinks (view k) (view (final (deps.loadProbeObjects k)))
  newReader : ∀ m k, SameLinks (view k) (view (final (deps.newReader m k)))
  closeObjects : ∀ o k, SameLinks (view k) (view (final (deps.closeObjects o k)))
  qdiscAdd : ∀ h q k,
    Elsewhere q.attrs.linkIndex (view k) (view (final (deps.qdiscAdd h q k)))
  qdiscReplace : ∀ h q k,
    Elsewhere q.attrs.linkIndex (view k) (view (final (deps.qdiscReplace h q k)))
  filterAdd : ∀ h f k,
    Elsewhere f.attrs.linkIndex (view k) (view (final (deps.filterAdd h f k)))
  filterReplace : ∀ h f k,
    Elsewhere f.attrs.linkIndex (view k) (view (final (deps.filterReplace h f k)))

theorem Deps.Lawful.isLocal (lawful : deps.Lawful view) (clean : deps.FailsCleanly view) :
    deps.Local view where
  setRlimit := by
    refine fun k => final_related SameLinks.refl (fun _ k' done => ?_) (clean.setRlimit k)
    rw [lawful.setRlimit k k' done]
    exact .refl _
  linkByName := by
    refine fun name k => final_related SameLinks.refl (fun i k' found => ?_)
      (clean.linkByName name k)
    rw [(lawful.linkByName name k i k' found).1]
    exact .refl _
  newHandle := by
    refine fun k => final_related SameLinks.refl (fun h k' made => ?_) (clean.newHandle k)
    rw [lawful.newHandle k h k' made]
    exact ⟨rfl, rfl⟩
  loadProbeObjects := by
    refine fun k => final_related SameLinks.refl (fun o k' loaded => ?_)
      (clean.loadProbeObjects k)
    rw [lawful.loadProbeObjects k o k' loaded]
    exact ⟨rfl, rfl⟩
  newReader := by
    refine fun m k => final_related SameLinks.refl (fun r k' opened => ?_) (clean.newReader m k)
    rw [lawful.newReader m k r k' opened]
    exact ⟨rfl, rfl⟩
  closeObjects := by
    intro o k
    cases closed : deps.closeObjects o k with
    | ok _ k' =>
        change SameLinks (view k) (view k')
        rw [lawful.closeObjects o k k' closed]
        exact ⟨rfl, rfl⟩
    | error e k' =>
        obtain ⟨qdisc, filters⟩ := clean.closeObjects o k e k' closed
        exact ⟨qdisc, filters⟩
  qdiscAdd := by
    refine fun h q k => final_related (Elsewhere.refl _) (fun _ k' added => ?_)
      (lawful.qdiscAdd_error h q k)
    rw [lawful.qdiscAdd h q k k' added]
    exact Resources.setQdisc_elsewhere _ _ _
  qdiscReplace := by
    refine fun h q k => final_related (Elsewhere.refl _) (fun _ k' replaced => ?_)
      (clean.qdiscReplace h q k)
    rw [lawful.qdiscReplace h q k k' replaced]
    exact Resources.setQdisc_elsewhere _ _ _
  filterAdd := by
    refine fun h f k => final_related (Elsewhere.refl _) (fun _ k' added => ?_)
      (lawful.filterAdd_error h f k)
    rw [lawful.filterAdd h f k k' added]
    exact Resources.setFilters_elsewhere _ _ _
  filterReplace := by
    refine fun h f k => final_related (Elsewhere.refl _) (fun _ k' replaced => ?_)
      (clean.filterReplace h f k)
    obtain ⟨fs, same, _⟩ := lawful.filterReplace h f k k' replaced
    rw [same]
    exact Resources.setFilters_elsewhere _ _ _

/-- All that has been changed since `v` is on the link `i`. -/
structure OnlyOn (view : κ → Resources) (v : Resources) (i : Nat) (p : κ × List Nat) :
    Prop where
  changes : ∀ j ∈ p.2, j = i
  elsewhere : Elsewhere i v (view p.1)

variable {v : Resources} {i : Nat}

theorem keeps_onlyOn {α : Type} {notes : List Nat} {x : Call ε κ α}
    (there : ∀ j ∈ notes, j = i)
    (changes : ∀ k, Elsewhere i (view k) (view (final (x k)))) :
    Keeps (OnlyOn view v i) (noting notes x) := by
  intro p hp
  have away := hp.elsewhere.trans (changes p.1)
  rw [noting]
  cases made : x p.1 with
  | ok a k' =>
      rw [made] at away
      refine ⟨fun j hj => ?_, away⟩
      rcases List.mem_append.mp hj with hj | hj
      · exact there j hj
      · exact hp.changes j hj
  | error e k' =>
      rw [made] at away
      exact ⟨hp.changes, away⟩

theorem keeps_quiet {α : Type} {x : Call ε κ α}
    (same : ∀ k, SameLinks (view k) (view (final (x k)))) :
    Keeps (OnlyOn view v i) (noting [] x) :=
  keeps_onlyOn (fun _ hj => by contradiction) fun k => (same k).elsewhere i

/-! ## Set-up -/

/-- What the calls for each of the filters keep, `createFilters` keeps. -/
theorem createFilters_keeps {I : κ → Prop} {handle : Nat} {objects : ProbeObjects}
    (add : ∀ f ∈ probeFilters iface objects, Keeps I (deps.filterAdd handle f))
    (replace : ∀ f ∈ probeFilters iface objects, Keeps I (deps.filterReplace handle f)) :
    Keeps I (createFilters deps iface handle objects) :=
  (Keeps.each fun f hf => (add f hf).orElse (replace f hf)).bind fun _ => .pure _

/-- On the link `i` everything may be put. -/
theorem newProbe_onlyOn (here : deps.Local view) :
    Keeps (OnlyOn view v i) (newProbe deps.journal i) := by
  refine (keeps_quiet here.newHandle).bind fun handle => ?_
  refine (keeps_quiet here.loadProbeObjects).bind fun objects => ?_
  have there {j : Nat} (same : j = i) : ∀ j' ∈ [j], j' = i := fun j' hj' =>
    (List.mem_singleton.mp hj').trans same
  have qdisc : Keeps (OnlyOn view v i) (createQdisc deps.journal i handle) :=
    ((keeps_onlyOn (there rfl) (here.qdiscAdd handle (clsactOn i))).orElse
      (keeps_onlyOn (there rfl) (here.qdiscReplace handle (clsactOn i)))).bind fun _ => .pure _
  refine qdisc.bind fun _ => ?_
  refine (createFilters_keeps (fun f hf => ?_) (fun f hf => ?_)).bind fun _ => .pure _
  · have index := probeFilters_linkIndex hf
    exact keeps_onlyOn (there index) (index ▸ here.filterAdd handle f)
  · have index := probeFilters_linkIndex hf
    exact keeps_onlyOn (there index) (index ▸ here.filterReplace handle f)

/-- `Run`, called in state `k`, gets as far as to put a qdisc on the link `e`. -/
def PutsQdisc (deps : Deps ε κ) (k : κ) (e : Nat) : Prop :=
  ∃ k1 k2 h k3 o k4 k5, deps.setRlimit k = .ok () k1 ∧ deps.linkByName "eth0" k1 = .ok e k2 ∧
    deps.newHandle k2 = .ok h k3 ∧ deps.loadProbeObjects k3 = .ok o k4 ∧
    EitherOk (deps.qdiscAdd h (clsactOn e)) (deps.qdiscReplace h (clsactOn e)) () k4 k5

/-- A qdisc that cannot be put on a link changes nothing. -/
theorem createQdisc_onlyOn (lawful : deps.Lawful view) (clean : deps.FailsCleanly view)
    {handle : Nat} {p : κ × List Nat} (hp : OnlyOn view v i p)
    (fails : ∀ q p', createQdisc deps.journal iface handle p ≠ .ok q p') :
    OnlyOn view v i (final (createQdisc deps.journal iface handle p)) := by
  cases made : createQdisc deps.journal iface handle p with
  | ok q p' => exact absurd made (fails q p')
  | error e p' =>
      obtain ⟨e', m, first, second⟩ := createQdisc_error made
      obtain ⟨notAdded, none⟩ := noting_error.mp first
      obtain ⟨notReplaced, still⟩ := noting_error.mp second
      have same := clean.qdiscFailed lawful ⟨e', m.1, notAdded, notReplaced⟩
      refine ⟨fun j hj => hp.changes j ?_, ?_⟩
      · rwa [final, still, none] at hj
      · change Elsewhere i v (view p'.1)
        rw [same]
        exact hp.elsewhere

/-- Nor does `newProbe` change anything where no qdisc can be put. -/
theorem newProbe_onlyOn_of_stops (lawful : deps.Lawful view) (clean : deps.FailsCleanly view)
    {p : κ × List Nat} (hp : OnlyOn view v i p)
    (stops : ∀ h k3 o k4 k5, deps.newHandle p.1 = .ok h k3 →
      deps.loadProbeObjects k3 = .ok o k4 →
      ¬ EitherOk (deps.qdiscAdd h (clsactOn iface)) (deps.qdiscReplace h (clsactOn iface)) ()
        k4 k5) :
    OnlyOn view v i (final (newProbe deps.journal iface p)) := by
  have here := lawful.isLocal clean
  rw [newProbe]
  refine Keeps.final_bind (keeps_quiet here.newHandle _ hp) fun h p3 gotHandle h3 => ?_
  refine Keeps.final_bind (keeps_quiet here.loadProbeObjects _ h3) fun o p4 loaded h4 => ?_
  have fails (q : ClsAct) (p5 : κ × List Nat) :
      createQdisc deps.journal iface h p4 ≠ .ok q p5 := by
    intro put
    obtain ⟨rfl, putQdisc⟩ := createQdisc_ok.mp ((createQdisc_notes deps iface h).done put)
    exact stops h p3.1 o p4.1 p5.1 (noting_ok.mp gotHandle).1 (noting_ok.mp loaded).1 putQdisc
  exact Keeps.final_bind (createQdisc_onlyOn lawful clean h4 fails) fun q p5 put =>
    absurd put (fails q p5)

/-- All that set-up changes is on the link `i`, if a qdisc is put on no other link. -/
theorem setUp_onlyOn (lawful : deps.Lawful view) (clean : deps.FailsCleanly view)
    (same : ∀ e, PutsQdisc deps k e → e = i) :
    OnlyOn view (view k) i (final (setUp deps.journal (k, []))) := by
  have here := lawful.isLocal clean
  have start : OnlyOn view (view k) i (k, []) := ⟨fun _ hj => by contradiction, .refl i _⟩
  rw [setUp]
  refine Keeps.final_bind (keeps_quiet here.setRlimit _ start) fun _ p1 limited h1 => ?_
  refine Keeps.final_bind (keeps_quiet (here.linkByName "eth0") _ h1) fun e p2 found h2 => ?_
  have probed : OnlyOn view (view k) i (final (newProbe deps.journal e p2)) := by
    by_cases given : e = i
    · subst given
      exact newProbe_onlyOn here p2 h2
    · refine newProbe_onlyOn_of_stops lawful clean h2 fun h k3 o k4 k5 gotHandle loaded put => ?_
      exact given (same e ⟨p1.1, p2.1, h, k3, o, k4, k5, (noting_ok.mp limited).1,
        (noting_ok.mp found).1, gotHandle, loaded, put⟩)
  rw [← final_ignoring] at probed
  refine Keeps.final_bind probed fun made p3 _ h3 => ?_
  cases made with
  | none => exact h3
  | some hook => exact (keeps_quiet (here.newReader _)).bind (fun _ => .pure _) p3 h3

/-- A qdisc that has been put on a link is noted. -/
theorem setUp_noted {e : Nat} (puts : PutsQdisc deps k e) :
    e ∈ (final (setUp deps.journal (k, []))).2 := by
  obtain ⟨k1, k2, h, k3, o, k4, k5, limited, found, gotHandle, loaded, put⟩ := puts
  have limited' : deps.journal.setRlimit (k, []) = .ok () (k1, []) :=
    noting_ok.mpr ⟨limited, rfl⟩
  have found' : deps.journal.linkByName "eth0" (k1, []) = .ok e (k2, []) :=
    noting_ok.mpr ⟨found, rfl⟩
  have gotHandle' : deps.journal.newHandle (k2, []) = .ok h (k3, []) :=
    noting_ok.mpr ⟨gotHandle, rfl⟩
  have loaded' : deps.journal.loadProbeObjects (k3, []) = .ok o (k4, []) :=
    noting_ok.mpr ⟨loaded, rfl⟩
  have put' : createQdisc deps.journal e h (k4, []) = .ok (clsactOn e) (k5, [e]) :=
    createQdisc_ok.mpr ⟨rfl, put.noting []⟩
  have probed : e ∈ (final (newProbe deps.journal e (k2, []))).2 := by
    rw [newProbe, bind_of_ok gotHandle', bind_of_ok loaded', bind_of_ok put']
    have keeps : Keeps (fun p : κ × List Nat => e ∈ p.2) (createFilters deps.journal e h o) :=
      createFilters_keeps (fun _ _ => Keeps.mem_notes e _ _) (fun _ _ => Keeps.mem_notes e _ _)
    exact (keeps.bind fun _ => .pure _) _ (List.mem_singleton_self e)
  rw [← final_ignoring] at probed
  rw [setUp, bind_of_ok limited', bind_of_ok found']
  refine Keeps.final_bind (I := fun p : κ × List Nat => e ∈ p.2) probed fun made p3 _ h3 => ?_
  cases made with
  | none => exact h3
  | some hook => exact ((Keeps.mem_notes e _ _).bind fun _ => .pure _) p3 h3

/-! ## Every run -/

namespace Monitor

/-- `Run` when it has been called with the given link, which it replaces by `eth0`. -/
def startOn (deps : Deps ε κ) (_iface : Nat) (system : κ) : Monitor ε κ := start deps system

/-- What is left of the system, or what there is of it so far. -/
def system : Monitor ε κ → κ
  | .running _ _ k _ => k
  | .returned _ k => k
  | .panicked k => k

theorem start_system (deps : Deps ε κ) (k : κ) :
    (start deps k).system = final (setUp deps k) := by
  rw [start]
  cases setUp deps k with
  | error err k' => rfl
  | ok made k' => cases made <;> rfl

/-- Links are changed in set-up only. -/
structure SameSystem (view : κ → Resources) (p q : κ × List Nat) : Prop where
  links : SameLinks (view p.1) (view q.1)
  changes : q.2 = p.2

variable {decode : Sample → Go (Option Packet)} {p : κ × List Nat}

theorem SameSystem.step {m m' : Monitor ε (κ × List Nat)} {a : Pipeline.Action}
    (here : deps.Local view) (same : SameSystem view p m.system)
    (h : step deps.journal decode m a = some m') : SameSystem view p m'.system := by
  obtain ⟨hook, reader, q, s, next, rfl, _, left⟩ := step_cases h
  have closes := here.closeObjects hook.bpfObjects q.1
  rcases left with rfl | ⟨q', closed, rfl⟩ | ⟨err, q', failed, rfl⟩
  · exact same
  · obtain ⟨done, noted⟩ := noting_ok.mp closed
    rw [done] at closes
    exact ⟨same.links.trans closes, noted.trans same.changes⟩
  · obtain ⟨done, noted⟩ := noting_error.mp failed
    rw [done] at closes
    exact ⟨same.links.trans closes, noted.trans same.changes⟩

theorem run_sameSystem {m : Monitor ε (κ × List Nat)} {as : List Pipeline.Action}
    (here : deps.Local view)
    (run : Transition.run (step deps.journal decode) (start deps.journal p) as = some m) :
    SameSystem view (final (setUp deps.journal p)) m.system := by
  rw [← start_system]
  let unchanged (m : Monitor ε (κ × List Nat)) : Prop :=
    SameSystem view (start deps.journal p).system m.system
  have first : unchanged (start deps.journal p) := ⟨.refl _, rfl⟩
  have last : unchanged m := Transition.run_invariant (fun _ _ _ => SameSystem.step here) first run
  exact last

end Monitor

/-- `Run`, called in state `k`, has changed nothing but the link `i`. After set-up the four
filters are there. -/
structure TouchesOnly (deps : Deps ε κ) (view : κ → Resources) (k : κ) (i : Nat)
    (p : κ × List Nat) : Prop extends OnlyOn view (view k) i p where
  installed : ∀ hook reader k', setUp deps k = .ok (some (hook, reader)) k' →
    ∀ f ∈ probeFilters i hook.bpfObjects, f ∈ (view p.1).filters i

/-- The filters that `setUp` puts on `eth0`. -/
theorem setUp_installs (lawful : deps.Lawful view) {hook : Probe} {reader : Nat} {k' : κ}
    (ready : setUp deps k = .ok (some (hook, reader)) k') :
    PutsQdisc deps k hook.iface ∧
      ∀ f ∈ probeFilters hook.iface hook.bpfObjects, f ∈ (view k').filters hook.iface := by
  obtain ⟨k1, iface, k2, k3, limited, found, installed, opened⟩ := setUp_ok ready
  obtain ⟨rfl, qdisc, filters, m1, m2, m3, gotHandle, loaded, putQdisc, putFilters⟩ := installed
  rw [qdisc] at putQdisc
  rw [filters] at putFilters
  obtain ⟨fs, same, here, _⟩ := lawful.putFilters
    (fun f hf => probeFilters_linkIndex hf) (probeFilters_distinct _ _) putFilters
  refine ⟨⟨k1, k2, _, m1, _, m2, m3, limited, found, gotHandle, loaded, putQdisc⟩, ?_⟩
  intro f hf
  rw [lawful.newReader _ _ _ _ opened, same, Resources.filters_setFilters]
  exact here f hf

/-- `Run` touches no link but the given one if and only if no qdisc is put on another. -/
theorem touchesOnly_iff (lawful : deps.Lawful view) (clean : deps.FailsCleanly view)
    (decode : Sample → Go (Option Packet)) (k : κ) (i : Nat) :
    (∀ as m, Transition.run (Monitor.step deps.journal decode)
        (Monitor.startOn deps.journal i (k, [])) as = some m →
      TouchesOnly deps view k i m.system) ↔
      ∀ e, PutsQdisc deps k e → e = i := by
  have here := lawful.isLocal clean
  constructor
  · intro touches e puts
    have start := touches [] _ rfl
    rw [Monitor.startOn, Monitor.start_system] at start
    exact start.changes e (setUp_noted puts)
  · intro given as m run
    have only := setUp_onlyOn lawful clean given
    have same := Monitor.run_sameSystem here run
    refine ⟨⟨?_, ?_⟩, ?_⟩
    · rw [same.changes]
      exact only.changes
    · exact only.elsewhere.trans (same.links.elsewhere i)
    · intro hook reader k' ready
      obtain ⟨puts, filters⟩ := setUp_installs lawful ready
      obtain ⟨l, ready'⟩ := (setUp_notes deps).ok (p := (k, [])) ready
      obtain rfl := given _ puts
      rw [same.links.filters, ready']
      exact filters

/-! ## A host with two interfaces -/

def twoInterfaces : Resources :=
  { freshHost with
    link := fun name => if name = "eth0" then some 2 else if name = "eth1" then some 3 else none }

theorem eth0_touchesOnly_iff :
    (∀ as m, Transition.run (Monitor.step hostDeps.journal unmarshalBinary)
        (Monitor.startOn hostDeps.journal 2 (twoInterfaces, [])) as = some m →
      TouchesOnly hostDeps id twoInterfaces 2 m.system) ↔
      ∀ e, PutsQdisc hostDeps twoInterfaces e → e = 2 :=
  touchesOnly_iff hostDeps_lawful hostDeps_failsCleanly unmarshalBinary twoInterfaces 2

/-- `Run` is given `eth1`. The qdisc and the filters are put on `eth0`. -/
theorem eth1_refutes_touchesOnly :
    ¬ ∀ (ε κ : Type) (deps : Deps ε κ) (view : κ → Resources)
      (decode : Sample → Go (Option Packet)) (k : κ) (name : String) (i : Nat)
      (as : List Pipeline.Action) (m : Monitor ε (κ × List Nat)),
      deps.Lawful view → deps.FailsCleanly view → (view k).link name = some i →
      Transition.run (Monitor.step deps.journal decode)
        (Monitor.startOn deps.journal i (k, [])) as = some m →
      TouchesOnly deps view k i m.system := by
  intro claimed
  have touches := claimed String Resources hostDeps id unmarshalBinary twoInterfaces "eth1" 3 []
    (Monitor.startOn hostDeps.journal 3 (twoInterfaces, [])) hostDeps_lawful hostDeps_failsCleanly
    (by decide) rfl
  have puts : (Monitor.startOn hostDeps.journal 3 (twoInterfaces, [])).system.2 =
      [2, 2, 2, 2, 2] := rfl
  have given : 2 = 3 := touches.changes 2 (puts ▸ List.mem_cons_self)
  contradiction

example : ((Monitor.start hostDeps twoInterfaces).system.filters 2).length = 4 ∧
    (Monitor.start hostDeps twoInterfaces).system.filters 3 = [] := by decide +kernel

end Xcnf.Flow
