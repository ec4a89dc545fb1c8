import Xcnf.Flow.Deployment

/-!
# Cancellation

Once the context is cancelled, the main loop of `Run` can return by its own next six steps,
whatever it is at and whatever the other goroutines do (`Deployment.run_returns`). After it
has returned from its `select`, the goroutines and the CPUs that go on change next to nothing
(`Deployment.run_silent`): the ticker has been stopped, so that `Prune` is called once more at
most, for a tick that had been received by then.
-/

namespace Xcnf.Flow.Deployment

variable {order : ByteOrder} {n : Nat} {s t m : Deployment order n}

/-! ## `Run` can return -/

/-- The main loop can return by at most `k` steps of its own. -/
def ReturnsIn (k : Nat) (s : Deployment order n) : Prop :=
  ∃ as t, as.length ≤ k ∧ (∀ a ∈ as, Action.Own a) ∧ Transition.run step s as = some t ∧
    t.pipeline.main = .returned

/-- From every state reached, a cancelled `Run` can return within six steps of its own. -/
theorem run_returns {as : List (Action n)} {s : Deployment order n}
    (reached : Transition.run step start as = some s)
    (cancelled : s.pipeline.cancelled = true) : ReturnsIn 6 s := by
  by_cases at_ : s.pipeline.main = .returned
  · exact ⟨[], s, Nat.zero_le 6, fun _ h => by contradiction, rfl, at_⟩
  · obtain ⟨m, settled⟩ := (run_consistent reached).settles at_
    obtain ⟨bs, length, own, run⟩ := settled.steps
    have done : m.pipeline.step unmarshalBinary .done =
        some { m.pipeline with main := .returned } := by
      simp only [Pipeline.step, settled.selecting, settled.cancelled, cancelled, if_true]
    refine ⟨bs ++ [.user .done], { m with pipeline := { m.pipeline with main := .returned } },
      ?_, ?_, ?_, rfl⟩
    · rw [List.length_append]
      exact Nat.succ_le_succ length
    · exact List.forall_mem_append.mpr ⟨own, List.forall_mem_singleton.mpr trivial⟩
    · exact Transition.run_snoc run (step_user (fun _ h => by contradiction) done)

/-- `Run` is cancelled while it handles an event. -/
def cancelledAtWork : List (Action 8) :=
  [.capture 0 datagram4 0 1000, .append 0 0, .read, .user .receive, .user .cancel]

theorem cancelledAtWork_returns :
    ReturnsIn 6
      ((Transition.run (@step .little 8) start cancelledAtWork).get (by decide +kernel)) :=
  run_returns (Option.some_get _).symm (by decide +kernel)

/-! ## After `Run` has returned -/

/-- What may still happen after the state `s`, in which `Run` has returned. -/
structure Silent (s t : Deployment order n) : Prop where
  returned : t.pipeline.main = .returned
  handed : t.pipeline.handed = s.pipeline.handed
  reports : t.pipeline.shared.reports = s.pipeline.shared.reports
  /-- `Prune` may go on. -/
  table : ∀ k e, t.pipeline.shared.table.load k = some e →
    s.pipeline.shared.table.load k = some e

theorem Silent.refl (returned : s.pipeline.main = .returned) : Silent s s :=
  ⟨returned, rfl, rfl, fun _ _ h => h⟩

/-- The steps of `Prune` print nothing and only take entries away. -/
theorem tick_silent {main : Main} {due : Bool} {a : System.Action} {shared shared' : System}
    (lets : main.lets due a = true) (h : shared.step a = some shared') :
    shared'.reports = shared.reports ∧
      ∀ k e, shared'.table.load k = some e → shared.table.load k = some e := by
  cases System.step_sound h with
  | unknown | get | insert | ignore | report | keep | found | missing | remove => contradiction
  | clock | visit | condemn | fresh | rangeEnd => exact ⟨rfl, fun _ _ h => h⟩
  | prune => exact ⟨rfl, fun _ _ => SyncMap.load_of_load_delete⟩

theorem Silent.user {a : Pipeline.Action} {pipeline : Pipeline} (h : Silent s t)
    (next : t.pipeline.step unmarshalBinary a = some pipeline) :
    Silent s { t with pipeline := pipeline } := by
  have returned := h.returned
  cases Pipeline.step_sound next with
  | read | readError | fire | cancel => exact ⟨h.returned, h.handed, h.reports, h.table⟩
  | receive at_ | crash at_ | reject at_ | call at_ | calculate at_ | returns at_ | done at_ =>
      rw [at_] at returned
      contradiction
  | tick lets shared =>
      obtain ⟨printed, less⟩ := tick_silent lets shared
      exact ⟨h.returned, h.handed, printed.trans h.reports,
        fun k e present => h.table k e (less k e present)⟩

theorem Silent.step {a : Action n} (h : Silent s m) (next : Deployment.step m a = some t) :
    Silent s t := by
  cases step_sound next with
  | stamp | pass | append | drop => exact ⟨h.returned, h.handed, h.reports, h.table⟩
  | read _ taken =>
      have after := h.user taken
      exact ⟨after.returned, after.handed, after.reports, after.table⟩
  | user _ taken => exact h.user taken

/-- The step calls `Prune`. -/
def Action.callsPrune : Action n → Bool
  | .user (.tick (.clock _)) => true
  | _ => false

/-- How often `Prune` is called. -/
def pruneCalls (as : List (Action n)) : Nat := as.countP Action.callsPrune

theorem pruneCalls_snoc (as : List (Action n)) (a : Action n) :
    pruneCalls (as ++ [a]) = pruneCalls as + a.callsPrune.toNat := by
  rw [pruneCalls, List.countP_append, List.countP_singleton]
  cases a.callsPrune <;> rfl

/-- The call of `Prune` is the one step that a tick is due for. -/
theorem due_of_lets {main : Main} {due : Bool} {a : System.Action}
    (lets : main.lets due a = true) : due = (Action.user (n := n) (.tick a)).callsPrune := by
  cases a with
  | recv | consume => contradiction
  | clock => exact (Bool.and_eq_true_iff.mp lets).2
  | visit | compare | delete | rangeEnd =>
      exact Bool.not_eq_eq_eq_not.mp (Bool.and_eq_true_iff.mp lets).2

/-- The ticker has been stopped. -/
theorem Silent.no_fire {a : Action n} (h : Silent s m) (next : Deployment.step m a = some t) :
    a ≠ .user .fire := by
  rintro rfl
  cases step_sound next with
  | user _ taken =>
      cases Pipeline.step_sound taken with
      | fire _ ticking =>
          rw [h.returned] at ticking
          contradiction

/-- A call of `Prune` uses up the tick that is due. -/
theorem callsPrune_due {a : Action n} (h : Deployment.step m a = some t) (no : a ≠ .user .fire) :
    a.callsPrune.toNat + t.pipeline.due.toNat = m.pipeline.due.toNat := by
  cases step_sound h with
  | stamp | pass | append | drop => exact Nat.zero_add _
  | read _ taken =>
      cases Pipeline.step_sound taken with
      | read => exact Nat.zero_add _
  | user _ taken =>
      cases Pipeline.step_sound taken with
      | read | readError | receive | crash | reject | call => exact Nat.zero_add _
      | calculate | returns | cancel | done => exact Nat.zero_add _
      | fire => exact absurd rfl no
      | tick lets => exact congrArg Bool.toNat (due_of_lets lets).symm

/-- What has happened by `t` when `Run` had returned in `s`. The one event that may have been
read and not handed on is lost. -/
structure AfterReturn (s : Deployment order n) (done : List (Action n)) (t : Deployment order n) :
    Prop extends Silent s t where
  /-- No tick is received any more. -/
  ticker : .user .fire ∉ done
  /-- `Prune` is called for the tick that was due, or not at all. -/
  prune : pruneCalls done + t.pipeline.due.toNat = s.pipeline.due.toNat
  lost : ∃ event, t.pipeline.read = s.pipeline.handed ++ event ∧ event.length ≤ 1

/-- After `Run` has returned, whatever goroutines and CPUs are left do: nothing more is printed,
handed on or stored, no tick is received, `Prune` is called for a tick that was received before
or not at all, and of all that was read at most one event is not handled. -/
theorem run_silent {as bs : List (Action n)} {s t : Deployment order n}
    (reached : Transition.run step start as = some s) (returned : s.pipeline.main = .returned)
    (later : Transition.run step s bs = some t) : AfterReturn s bs t := by
  have keep : ∀ (done : List (Action n)) (m : Deployment order n) (a : Action n)
      (t : Deployment order n),
      Silent s m ∧ .user .fire ∉ done ∧
          pruneCalls done + m.pipeline.due.toNat = s.pipeline.due.toNat → step m a = some t →
        Silent s t ∧ .user .fire ∉ done ++ [a] ∧
          pruneCalls (done ++ [a]) + t.pipeline.due.toNat = s.pipeline.due.toNat := by
    rintro done m a t ⟨silent, none, called⟩ next
    have no := silent.no_fire next
    refine ⟨silent.step next, fun mem => ?_, ?_⟩
    · rcases List.mem_append.mp mem with before | last
      · exact none before
      · exact no (List.mem_singleton.mp last).symm
    · rw [pruneCalls_snoc, Nat.add_assoc, callsPrune_due next no, called]
  have first : Silent s s ∧ Action.user .fire ∉ ([] : List (Action n)) ∧
      pruneCalls ([] : List (Action n)) + s.pipeline.due.toNat = s.pipeline.due.toNat :=
    ⟨Silent.refl returned, fun h => by contradiction, Nat.zero_add _⟩
  obtain ⟨silent, none, called⟩ := Transition.run_invariant_history keep first later
  have whole : Transition.run step start (as ++ bs) = some t := by
    rw [Transition.run_append, reached]
    exact later
  refine ⟨silent, none, called, Pipeline.Reader.pending t.pipeline.reader, ?_, ?_⟩
  · rw [(run_consistent whole).conserves, silent.returned, silent.handed]
    rfl
  · cases t.pipeline.reader <;> simp [Pipeline.Reader.pending]

/-- `Run` returns with a tick received and an event in the ring buffer. -/
def returnedEarly : List (Action 8) :=
  [.user .cancel, .capture 0 datagram4 0 1000, .append 0 0, .user .fire, .user .done]

/-- The reader goroutine takes this event, another one is appended, and `Prune` runs. -/
def leftRunning : List (Action 8) :=
  [.read, .user (.tick (.clock 3000)), .capture 1 datagram4 0 2000, .append 1 0,
    .user (.tick .rangeEnd)]

theorem returnedEarly_silent :
    ∃ s t, Transition.run (@step .little 8) start returnedEarly = some s ∧
      Transition.run step s leftRunning = some t ∧ AfterReturn s leftRunning t :=
  ⟨(Transition.run step start returnedEarly).get (by decide +kernel),
    (Transition.run step ((Transition.run step start returnedEarly).get (by decide +kernel))
      leftRunning).get (by decide +kernel),
    (Option.some_get _).symm, (Option.some_get _).symm,
    run_silent (Option.some_get _).symm (by decide +kernel) (Option.some_get _).symm⟩

end Xcnf.Flow.Deployment
