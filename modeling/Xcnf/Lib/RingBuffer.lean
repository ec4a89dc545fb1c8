import Xcnf.Lib.Transition
import Mathlib.Logic.Function.Basic

/-!
# A ring buffer with several producers

A producer reserves a record, fills it in with one store after the other, and commits it.
The records lie in the order of their reservations, and the one consumer takes them in that
order; it stops in front of a record that has not been committed. The memory of a new record
holds whatever was there before.

However the producers and the consumer interleave, the consumer gets complete records only,
each of them once and in the order of the reservations (`run_consumed`), and none of them is
out of its reach for good (`run_drain`).
-/

namespace RingBuffer

open Function (update)

variable {ι β : Type}

/-- One record: the memory it is reserved in, and the stores that fill it in. -/
structure Job (β : Type) where
  memory : β
  stores : List (β → β)

def apply (stores : List (β → β)) (b : β) : β := stores.foldl (fun b f => f b) b

/-- The record once it is complete. -/
def Job.result (job : Job β) : β := apply job.stores job.memory

structure Entry (β : Type) where
  busy : Bool
  content : β

/-- A producer at work: the number of its record, and the stores that are left. -/
structure Work (β : Type) where
  number : Nat
  stores : List (β → β)

/-- All records that have ever been reserved, and how many of them have been taken. -/
structure State (ι β : Type) where
  entries : List (Entry β)
  producers : ι → Option (Work β)
  taken : Nat
  consumed : List β

def start : State ι β where
  entries := []
  producers := fun _ => none
  taken := 0
  consumed := []

inductive Action (ι β : Type) where
  | reserve (i : ι) (job : Job β)
  | store (i : ι)
  | commit (i : ι)
  | take

def Action.job? : Action ι β → Option (Job β)
  | .reserve _ job => some job
  | .store _ | .commit _ | .take => none

/-- The reservations of a run, in order. -/
def jobs (as : List (Action ι β)) : List (Job β) := as.filterMap Action.job?

theorem jobs_append (as bs : List (Action ι β)) : jobs (as ++ bs) = jobs as ++ jobs bs :=
  List.filterMap_append

theorem jobs_snoc (as : List (Action ι β)) (a : Action ι β) :
    jobs (as ++ [a]) = jobs as ++ a.job?.toList := Transition.filterMap_snoc Action.job? as a

variable [DecidableEq ι]

def step (s : State ι β) : Action ι β → Option (State ι β)
  | .reserve i job =>
    match s.producers i with
    | some _ => none
    | none =>
      some { s with
        entries := s.entries ++ [⟨true, job.memory⟩]
        producers := update s.producers i (some ⟨s.entries.length, job.stores⟩) }
  | .store i =>
    match s.producers i with
    | some ⟨number, f :: stores⟩ =>
      some { s with
        entries := s.entries.modify number fun e => { e with content := f e.content }
        producers := update s.producers i (some ⟨number, stores⟩) }
    | _ => none
  | .commit i =>
    match s.producers i with
    | some ⟨number, []⟩ =>
      some { s with
        entries := s.entries.modify number fun e => { e with busy := false }
        producers := update s.producers i none }
    | _ => none
  | .take =>
    match s.entries[s.taken]? with
    | some ⟨false, b⟩ => some { s with taken := s.taken + 1, consumed := s.consumed ++ [b] }
    | _ => none

/-- What a step can do. -/
inductive Step (s : State ι β) : Action ι β → State ι β → Prop where
  | reserve {i job} (free : s.producers i = none) :
      Step s (.reserve i job)
        { s with
          entries := s.entries ++ [⟨true, job.memory⟩]
          producers := update s.producers i (some ⟨s.entries.length, job.stores⟩) }
  | store {i number f stores} (work : s.producers i = some ⟨number, f :: stores⟩) :
      Step s (.store i)
        { s with
          entries := s.entries.modify number fun e => { e with content := f e.content }
          producers := update s.producers i (some ⟨number, stores⟩) }
  | commit {i number} (work : s.producers i = some ⟨number, []⟩) :
      Step s (.commit i)
        { s with
          entries := s.entries.modify number fun e => { e with busy := false }
          producers := update s.producers i none }
  | take {b} (front : s.entries[s.taken]? = some ⟨false, b⟩) :
      Step s .take { s with taken := s.taken + 1, consumed := s.consumed ++ [b] }

theorem step_iff {s t : State ι β} {a : Action ι β} : step s a = some t ↔ Step s a t := by
  constructor
  · intro h
    cases a with
    | reserve i job =>
        simp only [step] at h
        split at h
        next => contradiction
        next free => exact Option.some.inj h ▸ .reserve free
    | store i =>
        simp only [step] at h
        split at h
        next work => exact Option.some.inj h ▸ .store work
        next => contradiction
    | commit i =>
        simp only [step] at h
        split at h
        next work => exact Option.some.inj h ▸ .commit work
        next => contradiction
    | take =>
        simp only [step] at h
        split at h
        next front => exact Option.some.inj h ▸ .take front
        next => contradiction
  · intro h
    cases h with
    | reserve free => simp only [step, free]
    | store work => simp only [step, work]
    | commit work => simp only [step, work]
    | take front => simp only [step, front]

/-- Only the consumer consumes. -/
theorem consumed_of_step {s t : State ι β} {a : Action ι β} (h : step s a = some t)
    (other : a ≠ .take) : t.consumed = s.consumed := by
  cases step_iff.mp h with
  | reserve _ | store _ | commit _ => rfl
  | take _ => contradiction

/-! ## Every record is complete when it is taken -/

/-- The record of a job: complete, or in the hands of a producer that will complete it. -/
def Kept (producers : ι → Option (Work β)) (k : Nat) (job : Job β) : Entry β → Prop
  | ⟨true, b⟩ =>
    ∃ i work, producers i = some work ∧ work.number = k ∧ apply work.stores b = job.result
  | ⟨false, b⟩ => b = job.result

/-- The records agree with the reservations `js`. -/
structure Consistent (js : List (Job β)) (s : State ι β) : Prop where
  length : s.entries.length = js.length
  consumed : s.consumed = (js.take s.taken).map Job.result
  passed : s.taken ≤ s.entries.length
  kept : ∀ k e job, s.entries[k]? = some e → js[k]? = some job → Kept s.producers k job e
  busy : ∀ i work, s.producers i = some work → ∃ b, s.entries[work.number]? = some ⟨true, b⟩
  alone : ∀ i j work work', s.producers i = some work → s.producers j = some work' →
    work.number = work'.number → i = j

section

variable {α : Type} {xs : List α} {x e : α} {n k : Nat}

theorem getElem?_snoc (h : (xs ++ [x])[k]? = some e) :
    xs[k]? = some e ∨ k = xs.length ∧ x = e := by
  rcases Nat.lt_trichotomy k xs.length with lt | eq | gt
  · rw [List.getElem?_append_left lt] at h
    exact .inl h
  · subst eq
    rw [List.getElem?_append_right (Nat.le_refl _), Nat.sub_self] at h
    exact .inr ⟨rfl, Option.some.inj h⟩
  · rw [List.getElem?_eq_none (by simp; omega)] at h
    contradiction

theorem getElem?_modify_cases {f : α → α} (h : (xs.modify n f)[k]? = some e) :
    (∃ e', k = n ∧ xs[n]? = some e' ∧ e = f e') ∨ k ≠ n ∧ xs[k]? = some e := by
  by_cases eq : n = k
  · subst eq
    rw [List.getElem?_modify_eq] at h
    obtain ⟨e', old, rfl⟩ := Option.map_eq_some_iff.mp h
    exact .inl ⟨e', rfl, old, rfl⟩
  · rw [List.getElem?_modify_ne _ _ eq] at h
    exact .inr ⟨fun e => eq e.symm, h⟩

/-- What a producer holds after one of them, perhaps another, has been given something else. -/
theorem update_cases {ι : Type} [DecidableEq ι] {f : ι → Option α} {i j : ι} {held : Option α}
    (h : update f i held j = some e) : j = i ∧ held = some e ∨ j ≠ i ∧ f j = some e := by
  by_cases eq : j = i
  · rw [eq, Function.update_self] at h
    exact .inl ⟨eq, h⟩
  · rw [Function.update_of_ne eq] at h
    exact .inr ⟨eq, h⟩

end

namespace Kept

variable {producers : ι → Option (Work β)} {k : Nat} {e : Entry β} {job : Job β}

/-- Another producer's change does not matter. -/
theorem update_of_ne (h : Kept producers k job e) {i : ι} (held : Option (Work β))
    (other : ∀ work, producers i = some work → work.number ≠ k) :
    Kept (update producers i held) k job e := by
  obtain ⟨busy, b⟩ := e
  cases busy with
  | true =>
      obtain ⟨j, work, here, rfl, result⟩ := h
      have ne : j ≠ i := by
        rintro rfl
        exact other work here rfl
      exact ⟨j, work, by rwa [Function.update_of_ne ne], rfl, result⟩
  | false => exact h

end Kept

namespace Consistent

variable {js : List (Job β)} {s t : State ι β}

omit [DecidableEq ι] in
theorem start : Consistent [] (RingBuffer.start : State ι β) where
  length := rfl
  consumed := rfl
  passed := Nat.le_refl 0
  kept := fun k e job h => by contradiction
  busy := fun i work h => by contradiction
  alone := fun i j work work' h => by contradiction

omit [DecidableEq ι] in
/-- A producer's record is one of those that there are. -/
theorem number_lt (inv : Consistent js s) {i : ι} {work : Work β}
    (h : s.producers i = some work) : work.number < s.entries.length := by
  obtain ⟨b, here⟩ := inv.busy i work h
  exact (List.getElem?_eq_some_iff.mp here).1

theorem reserve (inv : Consistent js s) {i : ι} (free : s.producers i = none) (job : Job β) :
    Consistent (js ++ [job])
      { s with
        entries := s.entries ++ [⟨true, job.memory⟩]
        producers := update s.producers i (some ⟨s.entries.length, job.stores⟩) } := by
  have passed := inv.passed
  refine ⟨?_, ?_, ?_, ?_, ?_, ?_⟩
  · simp only [List.length_append, List.length_singleton, inv.length]
  · rw [inv.consumed, List.take_append_of_le_length (inv.length ▸ passed)]
  · simp only [List.length_append, List.length_singleton]
    omega
  · intro k e job' he hjob
    rcases getElem?_snoc he with old | ⟨rfl, rfl⟩
    · have lt := (List.getElem?_eq_some_iff.mp old).1
      rw [List.getElem?_append_left (inv.length ▸ lt)] at hjob
      apply (inv.kept k e job' old hjob).update_of_ne
      intro work held
      rw [free] at held
      contradiction
    · rw [inv.length, List.getElem?_append_right (Nat.le_refl _), Nat.sub_self] at hjob
      obtain rfl : job = job' := Option.some.inj hjob
      exact ⟨i, _, Function.update_self .., rfl, rfl⟩
  · intro j work held
    rcases update_cases held with ⟨_, new⟩ | ⟨_, old⟩
    · obtain rfl := Option.some.inj new
      exact ⟨job.memory, by simp⟩
    · obtain ⟨b, here⟩ := inv.busy j work old
      exact ⟨b, by rwa [List.getElem?_append_left (inv.number_lt old)]⟩
  · intro j j' work work' held held' same
    rcases update_cases held with ⟨rfl, new⟩ | ⟨_, old⟩
    · rcases update_cases held' with ⟨rfl, _⟩ | ⟨_, old'⟩
      · rfl
      · obtain rfl := Option.some.inj new
        have lt := inv.number_lt old'
        simp only at same
        omega
    · rcases update_cases held' with ⟨rfl, new'⟩ | ⟨_, old'⟩
      · obtain rfl := Option.some.inj new'
        have lt := inv.number_lt old
        simp only at same
        omega
      · exact inv.alone j j' work work' old old' same

/-- A producer changes its own record, and keeps or gives up the right to do so. -/
theorem modify (inv : Consistent js s) {i : ι} {work : Work β} (h : s.producers i = some work)
    (f : Entry β → Entry β) (held : Option (Work β))
    (kept : ∀ b job, apply work.stores b = job.result →
      Kept (update s.producers i held) work.number job (f ⟨true, b⟩))
    (next : ∀ work', held = some work' → work'.number = work.number ∧
      ∀ b, ∃ b', f ⟨true, b⟩ = ⟨true, b'⟩) :
    Consistent js
      { s with
        entries := s.entries.modify work.number f
        producers := update s.producers i held } := by
  refine ⟨?_, inv.consumed, ?_, ?_, ?_, ?_⟩
  · rw [List.length_modify, inv.length]
  · rw [List.length_modify]
    exact inv.passed
  · intro k e job he hjob
    rcases getElem?_modify_cases he with ⟨e', rfl, old, rfl⟩ | ⟨ne, old⟩
    · obtain ⟨b, here⟩ := inv.busy i work h
      obtain rfl : e' = ⟨true, b⟩ := Option.some.inj (old.symm.trans here)
      obtain ⟨j, work', held', same, result⟩ := inv.kept _ _ _ old hjob
      obtain rfl := inv.alone i j work work' h held' same.symm
      obtain rfl : work = work' := Option.some.inj (h.symm.trans held')
      exact kept b job result
    · apply (inv.kept k e job old hjob).update_of_ne
      intro work' held' same
      obtain rfl : work = work' := Option.some.inj (h.symm.trans held')
      exact ne same.symm
  · intro j work' h'
    rcases update_cases h' with ⟨rfl, new⟩ | ⟨ne, old⟩
    · obtain ⟨same, stays⟩ := next work' new
      obtain ⟨b, here⟩ := inv.busy j work h
      obtain ⟨b', now⟩ := stays b
      refine ⟨b', ?_⟩
      rw [same, List.getElem?_modify_eq, here, ← now]
      rfl
    · obtain ⟨b, here⟩ := inv.busy j work' old
      refine ⟨b, ?_⟩
      rw [List.getElem?_modify_ne _ _ fun same => ne (inv.alone j i work' work old h same.symm)]
      exact here
  · intro j j' work₁ work₂ h₁ h₂ same
    rcases update_cases h₁ with ⟨rfl, new⟩ | ⟨ne, old⟩
    · rcases update_cases h₂ with ⟨rfl, _⟩ | ⟨_, old'⟩
      · rfl
      · exact inv.alone _ _ work _ h old' ((next work₁ new).1.symm.trans same)
    · rcases update_cases h₂ with ⟨rfl, new'⟩ | ⟨_, old'⟩
      · exact inv.alone _ _ _ work old h (same.trans (next work₂ new').1)
      · exact inv.alone j j' work₁ work₂ old old' same

omit [DecidableEq ι] in
theorem take (inv : Consistent js s) {b : β} (front : s.entries[s.taken]? = some ⟨false, b⟩) :
    Consistent js { s with taken := s.taken + 1, consumed := s.consumed ++ [b] } := by
  have lt := (List.getElem?_eq_some_iff.mp front).1
  obtain ⟨job, hjob⟩ : ∃ job, js[s.taken]? = some job :=
    ⟨_, List.getElem?_eq_getElem (inv.length ▸ lt)⟩
  have result : b = job.result := inv.kept _ _ _ front hjob
  refine ⟨inv.length, ?_, lt, inv.kept, inv.busy, inv.alone⟩
  rw [inv.consumed, result, List.take_add_one, hjob, List.map_append]
  rfl

theorem step {a : Action ι β} (inv : Consistent js s) (h : step s a = some t) :
    Consistent (js ++ a.job?.toList) t := by
  cases step_iff.mp h with
  | reserve free => exact inv.reserve free _
  | store work =>
      show Consistent (js ++ []) _
      rw [List.append_nil]
      apply inv.modify work
      · intro b job result
        exact ⟨_, _, Function.update_self .., rfl, result⟩
      · intro work' held
        obtain rfl := Option.some.inj held
        exact ⟨rfl, fun b => ⟨_, rfl⟩⟩
  | commit work =>
      show Consistent (js ++ []) _
      rw [List.append_nil]
      apply inv.modify work
      · intro b job result
        exact result
      · intro work' held
        contradiction
  | take front =>
      show Consistent (js ++ []) _
      rw [List.append_nil]
      exact inv.take front

end Consistent

/-- In every state that a run reaches the records agree with its reservations. -/
theorem run_consistent {as : List (Action ι β)} {t : State ι β}
    (run : Transition.run step start as = some t) : Consistent (jobs as) t := by
  have keep (done : List (Action ι β)) (s : State ι β) (a : Action ι β) (t : State ι β)
      (inv : Consistent (jobs done) s) (h : step s a = some t) :
      Consistent (jobs (done ++ [a])) t := by
    rw [jobs_snoc]
    exact inv.step h
  have first : Consistent (jobs ([] : List (Action ι β))) (start : State ι β) := Consistent.start
  exact Transition.run_invariant_history keep first run

/-- The consumer has got the first records in the order of the reservations, each of them
complete and once. -/
theorem run_consumed {as : List (Action ι β)} {t : State ι β}
    (run : Transition.run step start as = some t) :
    t.consumed = ((jobs as).take t.taken).map Job.result := (run_consistent run).consumed

/-! ## No record is out of reach -/

/-- A producer finishes its record, with nobody in between. -/
theorem run_finish {s : State ι β} {i : ι} {work : Work β} {b : β}
    (h : s.producers i = some work) (here : s.entries[work.number]? = some ⟨true, b⟩) :
    ∃ as t, Transition.run step s as = some t ∧ jobs as = [] ∧ t.taken = s.taken ∧
      t.entries.length = s.entries.length ∧
      t.entries[work.number]? = some ⟨false, apply work.stores b⟩ := by
  obtain ⟨number, stores⟩ := work
  induction stores generalizing s b with
  | nil =>
      refine ⟨[.commit i], _, (Transition.run_single _).trans (step_iff.mpr (.commit h)), rfl, rfl,
        List.length_modify .., ?_⟩
      rw [List.getElem?_modify_eq, here]
      rfl
  | cons f stores ih =>
      let m : State ι β := { s with
        entries := s.entries.modify number fun e => { e with content := f e.content }
        producers := update s.producers i (some ⟨number, stores⟩) }
      have stored : step s (.store i) = some m := step_iff.mpr (.store h)
      have here' : m.entries[number]? = some ⟨true, f b⟩ := by
        rw [List.getElem?_modify_eq, here]
        rfl
      obtain ⟨as, t, run, none, taken, length, result⟩ := ih (Function.update_self ..) here'
      exact ⟨.store i :: as, t, Transition.run_cons_some.mpr ⟨m, stored, run⟩, none, taken,
        length.trans (List.length_modify ..), result⟩

/-- The consumer can always get on, once the producer in its way has finished. -/
theorem run_advance {js : List (Job β)} {s : State ι β} (inv : Consistent js s)
    (more : s.taken < s.entries.length) :
    ∃ as t, Transition.run step s as = some t ∧ jobs as = [] ∧ t.taken = s.taken + 1 ∧
      t.entries.length = s.entries.length := by
  have front : s.entries[s.taken]? = some (s.entries.get ⟨s.taken, more⟩) :=
    List.getElem?_eq_getElem more
  obtain ⟨job, hjob⟩ : ∃ job, js[s.taken]? = some job :=
    ⟨_, List.getElem?_eq_getElem (inv.length ▸ more)⟩
  have kept := inv.kept _ _ _ front hjob
  generalize s.entries.get ⟨s.taken, more⟩ = e at front kept
  match e, kept with
  | ⟨false, b⟩, _ =>
      exact ⟨[.take], _, (Transition.run_single _).trans (step_iff.mpr (.take front)), rfl, rfl,
        rfl⟩
  | ⟨true, b⟩, ⟨i, work, held, same, _⟩ =>
      obtain ⟨as, m, run, none, taken, length, committed⟩ :=
        run_finish held (same ▸ front)
      rw [same, ← taken] at committed
      refine ⟨as ++ [.take], { m with
        taken := m.taken + 1
        consumed := m.consumed ++ [apply work.stores b] }, ?_, ?_, ?_, length⟩
      · rw [Transition.run_append, run]
        exact (Transition.run_single _).trans (step_iff.mpr (.take committed))
      · rw [jobs_append, none]
        rfl
      · rw [taken]

/-- From every state that a run reaches, the producers and the consumer can go on, without a
new reservation, until all records have been taken. -/
theorem run_drain {as : List (Action ι β)} {s : State ι β}
    (reached : Transition.run step start as = some s) :
    ∃ bs t, Transition.run step s bs = some t ∧ jobs bs = [] ∧
      t.consumed = (jobs as).map Job.result := by
  induction left : s.entries.length - s.taken generalizing as s with
  | zero =>
      have inv := run_consistent reached
      refine ⟨[], s, rfl, rfl, ?_⟩
      have passed := inv.passed
      rw [inv.consumed, List.take_of_length_le (by rw [← inv.length]; omega)]
  | succ n ih =>
      obtain ⟨bs, m, run, none, taken, length⟩ :=
        run_advance (run_consistent reached) (by omega)
      have reached' : Transition.run step start (as ++ bs) = some m := by
        rw [Transition.run_append, reached]
        exact run
      obtain ⟨cs, t, run', none', consumed⟩ := ih reached' (by rw [length, taken]; omega)
      refine ⟨bs ++ cs, t, ?_, ?_, ?_⟩
      · rw [Transition.run_append, run]
        exact run'
      · rw [jobs_append, none, none']
        rfl
      · rw [consumed, jobs_append, none, List.append_nil]

end RingBuffer
