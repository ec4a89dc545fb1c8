import Mathlib.Tactic.Common

/-!
# Calls that change a state and may fail

A call returns a value or an error, and in both cases the state it leaves behind. The
rules say in which states a composed call succeeds: a sequence when its parts do, an
alternative when either part does, and a call for each element of a list when there is a
`Chain` of states from one element to the next. The rules for errors say where a composed
call stops. `Keeps` is for what holds in the state left behind in either case, and
`noting` keeps notes of the calls that have succeeded, `logging` of what each call has returned.
Notes do not change what the calls do (`Notes`).
-/

namespace Effect

variable {ε σ α β : Type}

abbrev Call (ε σ α : Type) := EStateM ε σ α

/-- The second call is made in the state that the first one failed in. -/
def orElse (x y : Call ε σ α) : Call ε σ α := fun s =>
  match x s with
  | .ok a s => .ok a s
  | .error _ s => y s

/-- The error is dropped, and with it the value. -/
def ignoring (x : Call ε σ α) : Call ε σ (Option α) := fun s =>
  match x s with
  | .ok a s => .ok (some a) s
  | .error _ s => .ok none s

/-- The error is put into another one. -/
def wrapping {ε' : Type} (wrap : ε → ε') (x : Call ε σ α) : Call ε' σ α := fun s =>
  match x s with
  | .ok a s => .ok a s
  | .error e s => .error (wrap e) s

/-- One call after the other, up to the first error. -/
def each (f : α → Call ε σ Unit) : List α → Call ε σ Unit
  | [] => pure ()
  | a :: as => do
    f a
    each f as

/-- The one call succeeds, or fails in a state in which the other one succeeds. -/
def EitherOk (x y : Call ε σ α) (a : α) (s t : σ) : Prop :=
  x s = .ok a t ∨ ∃ e m, x s = .error e m ∧ y m = .ok a t

/-- A relation holds from each state to the next, one for each element. -/
inductive Chain (R : α → σ → σ → Prop) : List α → σ → σ → Prop where
  | nil {s} : Chain R [] s s
  | cons {a as s m t} (first : R a s m) (rest : Chain R as m t) : Chain R (a :: as) s t

variable {s t : σ}

theorem pure_ok {a b : α} : (pure a : Call ε σ α) s = .ok b t ↔ a = b ∧ s = t := by
  change EStateM.Result.ok a s = _ ↔ _
  rw [EStateM.Result.ok.injEq]

/-- A sequence, step by step. -/
theorem bind_apply (x : Call ε σ α) (f : α → Call ε σ β) (s : σ) :
    (x >>= f) s =
      match x s with
      | .ok a m => f a m
      | .error e m => .error e m := rfl

theorem bind_ok {x : Call ε σ α} {f : α → Call ε σ β} {b : β} :
    (x >>= f) s = .ok b t ↔ ∃ a m, x s = .ok a m ∧ f a m = .ok b t := by
  change EStateM.bind x f s = _ ↔ _
  rw [EStateM.bind]
  cases x s with
  | ok a m => simp
  | error e m => simp

theorem bind_error {x : Call ε σ α} {f : α → Call ε σ β} {e : ε} :
    (x >>= f) s = .error e t ↔ x s = .error e t ∨ ∃ a m, x s = .ok a m ∧ f a m = .error e t := by
  change EStateM.bind x f s = _ ↔ _
  rw [EStateM.bind]
  cases x s with
  | ok a m => simp
  | error e m => simp

theorem bind_of_ok {x : Call ε σ α} {f : α → Call ε σ β} {a : α} (h : x s = .ok a t) :
    (x >>= f) s = f a t := by
  rw [bind_apply, h]

theorem pure_error {a : α} {e : ε} : (pure a : Call ε σ α) s ≠ .error e t :=
  fun h => by contradiction

theorem modify_ok {f : σ → σ} {u : Unit} :
    (modify f : Call ε σ Unit) s = .ok u t ↔ f s = t := by
  change EStateM.Result.ok () (f s) = _ ↔ _
  simp

theorem ignoring_ok_some {x : Call ε σ α} {a : α} :
    ignoring x s = .ok (some a) t ↔ x s = .ok a t := by
  rw [ignoring]
  cases x s with
  | ok a' m => simp
  | error e m => simp

theorem wrapping_ok {ε' : Type} {wrap : ε → ε'} {x : Call ε σ α} {a : α} :
    wrapping wrap x s = .ok a t ↔ x s = .ok a t := by
  rw [wrapping]
  cases x s with
  | ok a' m => simp
  | error e m => simp

theorem wrapping_error {ε' : Type} {wrap : ε → ε'} {x : Call ε σ α} {e' : ε'} :
    wrapping wrap x s = .error e' t ↔ ∃ e, x s = .error e t ∧ wrap e = e' := by
  rw [wrapping]
  cases x s with
  | ok a m => simp
  | error e m => simp [and_comm]

theorem orElse_ok {x y : Call ε σ α} {a : α} :
    orElse x y s = .ok a t ↔ EitherOk x y a s t := by
  rw [orElse, EitherOk]
  cases x s with
  | ok a' m => simp
  | error e m => simp

/-- The one call fails, and the other one fails after it. -/
def BothFail (x y : Call ε σ α) (e : ε) (s t : σ) : Prop :=
  ∃ e' m, x s = .error e' m ∧ y m = .error e t

theorem orElse_error {x y : Call ε σ α} {e : ε} :
    orElse x y s = .error e t ↔ BothFail x y e s t := by
  rw [orElse, BothFail]
  cases x s with
  | ok a m => simp
  | error e' m => simp

theorem each_ok {f : α → Call ε σ Unit} {as : List α} {u : Unit} :
    each f as s = .ok u t ↔ Chain (fun a s t => f a s = .ok () t) as s t := by
  induction as generalizing s with
  | nil =>
      rw [each, pure_ok]
      constructor
      · rintro ⟨_, rfl⟩
        exact .nil
      · intro chain
        cases chain
        exact ⟨rfl, rfl⟩
  | cons a as ih =>
      rw [each, bind_ok]
      constructor
      · rintro ⟨_, m, first, rest⟩
        exact .cons first (ih.mp rest)
      · intro chain
        cases chain with
        | cons first rest => exact ⟨(), _, first, ih.mpr rest⟩

/-- The calls stop at the first element for which one fails. -/
theorem each_error {f : α → Call ε σ Unit} {as : List α} {e : ε} (h : each f as s = .error e t) :
    ∃ done a rest m, as = done ++ a :: rest ∧ Chain (fun a s t => f a s = .ok () t) done s m ∧
      f a m = .error e t := by
  induction as generalizing s with
  | nil => exact absurd h pure_error
  | cons a as ih =>
      rw [each, bind_error] at h
      rcases h with failed | ⟨_, m, first, rest⟩
      · exact ⟨[], a, as, s, rfl, .nil, failed⟩
      · obtain ⟨done, b, later, m', split, chain, failed⟩ := ih rest
        exact ⟨a :: done, b, later, m', by rw [split, List.cons_append], .cons first chain, failed⟩

/-! ## What holds afterwards -/

/-- The state that is left behind. -/
def final : EStateM.Result ε σ α → σ
  | .ok _ s => s
  | .error _ s => s

/-- The result without the state. -/
def outcome : EStateM.Result ε σ α → Except ε α
  | .ok a _ => .ok a
  | .error e _ => .error e

theorem final_ignoring (x : Call ε σ α) (s : σ) : final (ignoring x s) = final (x s) := by
  rw [ignoring]
  cases x s <;> rfl

theorem final_wrapping {ε' : Type} (wrap : ε → ε') (x : Call ε σ α) (s : σ) :
    final (wrapping wrap x s) = final (x s) := by
  rw [wrapping]
  cases x s <;> rfl

/-- A property of the state survives the call, whether it succeeds or not. -/
def Keeps (I : σ → Prop) (x : Call ε σ α) : Prop := ∀ s, I s → I (final (x s))

namespace Keeps

variable {I : σ → Prop}

theorem pure (a : α) : Keeps I (Pure.pure a : Call ε σ α) := fun _ hs => hs

/-- What holds after the first call is kept from there. -/
theorem final_bind {x : Call ε σ α} {f : α → Call ε σ β} (first : I (final (x s)))
    (rest : ∀ a m, x s = .ok a m → I m → I (final (f a m))) : I (final ((x >>= f) s)) := by
  rw [bind_apply]
  cases h : x s with
  | ok a m =>
      rw [h] at first
      exact rest a m h first
  | error e m =>
      rw [h] at first
      exact first

theorem bind {x : Call ε σ α} {f : α → Call ε σ β} (hx : Keeps I x) (hf : ∀ a, Keeps I (f a)) :
    Keeps I (x >>= f) :=
  fun s hs => final_bind (hx s hs) fun a m _ hm => hf a m hm

theorem wrapping {ε' : Type} {x : Call ε σ α} (wrap : ε → ε') (hx : Keeps I x) :
    Keeps I (wrapping wrap x) := fun s hs => final_wrapping wrap x s ▸ hx s hs

theorem orElse {x y : Call ε σ α} (hx : Keeps I x) (hy : Keeps I y) : Keeps I (orElse x y) := by
  intro s hs
  have first := hx s hs
  rw [Effect.orElse]
  cases h : x s with
  | ok a m =>
      rw [h] at first
      exact first
  | error e m =>
      rw [h] at first
      exact hy m first

theorem each {f : α → Call ε σ Unit} {as : List α} (hf : ∀ a ∈ as, Keeps I (f a)) :
    Keeps I (each f as) := by
  induction as with
  | nil => exact pure ()
  | cons a as ih =>
      exact (hf a List.mem_cons_self).bind fun _ =>
        ih fun b hb => hf b (List.mem_cons_of_mem a hb)

end Keeps

/-! ## Notes of the calls that succeed -/

/-- The call, with notes that are made if it succeeds. -/
def noting {ν : Type} (notes : List ν) (x : Call ε σ α) : Call ε (σ × List ν) α := fun s =>
  match x s.1 with
  | .ok a t => .ok a (t, notes ++ s.2)
  | .error e t => .error e (t, s.2)

/-- The call, with a note of what it has returned. -/
def logging {ν : Type} (note : Except ε α → ν) (x : Call ε σ α) : Call ε (σ × List ν) α := fun s =>
  match x s.1 with
  | .ok a t => .ok a (t, note (.ok a) :: s.2)
  | .error e t => .error e (t, note (.error e) :: s.2)

section Noting

variable {ν : Type} {notes : List ν} {x : Call ε σ α} {p q : σ × List ν}

theorem noting_ok {a : α} :
    noting notes x p = .ok a q ↔ x p.1 = .ok a q.1 ∧ q.2 = notes ++ p.2 := by
  obtain ⟨t, l⟩ := q
  rw [noting]
  cases x p.1 with
  | ok a' m => simp [and_assoc, eq_comm]
  | error e m => simp

theorem noting_error {e : ε} :
    noting notes x p = .error e q ↔ x p.1 = .error e q.1 ∧ q.2 = p.2 := by
  obtain ⟨t, l⟩ := q
  rw [noting]
  cases x p.1 with
  | ok a m => simp
  | error e' m => simp [and_assoc, eq_comm]

theorem EitherOk.noting {y : Call ε σ α} {a : α} (h : EitherOk x y a s t) (l : List ν) :
    EitherOk (noting notes x) (noting notes y) a (s, l) (t, notes ++ l) := by
  rcases h with done | ⟨e, m, failed, done⟩
  · exact .inl (noting_ok.mpr ⟨done, rfl⟩)
  · exact .inr ⟨e, (m, l), noting_error.mpr ⟨failed, rfl⟩, noting_ok.mpr ⟨done, rfl⟩⟩

/-- Notes are not lost. -/
theorem Keeps.mem_notes (note : ν) (notes : List ν) (x : Call ε σ α) :
    Keeps (fun p => note ∈ p.2) (Effect.noting notes x) := by
  intro p hp
  rw [Effect.noting]
  cases x p.1 with
  | ok a t => exact List.mem_append_right notes hp
  | error e t => exact hp

/-- The result without the notes. -/
def forget : EStateM.Result ε (σ × List ν) α → EStateM.Result ε σ α
  | .ok a p => .ok a p.1
  | .error e p => .error e p.1

/-- The first call does what the second one does; its notes change nothing. -/
def Notes (y : Call ε (σ × List ν) α) (x : Call ε σ α) : Prop := ∀ p, forget (y p) = x p.1

namespace Notes

variable {y : Call ε (σ × List ν) α}

theorem noting (notes : List ν) (x : Call ε σ α) : Notes (noting notes x) x := by
  intro p
  rw [Effect.noting]
  cases x p.1 <;> rfl

theorem logging (note : Except ε α → ν) (x : Call ε σ α) : Notes (logging note x) x := by
  intro p
  rw [Effect.logging]
  cases x p.1 <;> rfl

theorem wrapping {ε' : Type} (wrap : ε → ε') (h : Notes y x) :
    Notes (wrapping wrap y) (wrapping wrap x) := by
  intro p
  rw [Effect.wrapping, Effect.wrapping, ← h p]
  cases y p <;> rfl

theorem pure (a : α) : Notes (Pure.pure a : Call ε (σ × List ν) α) (Pure.pure a) := fun _ => rfl

theorem bind {f : α → Call ε σ β} {g : α → Call ε (σ × List ν) β} (first : Notes y x)
    (rest : ∀ a, Notes (g a) (f a)) : Notes (y >>= g) (x >>= f) := by
  intro p
  rw [bind_apply, bind_apply, ← first p]
  cases y p with
  | ok a q => exact rest a q
  | error e q => rfl

theorem orElse {x' : Call ε σ α} {y' : Call ε (σ × List ν) α} (first : Notes y x)
    (second : Notes y' x') : Notes (orElse y y') (orElse x x') := by
  intro p
  rw [Effect.orElse, Effect.orElse, ← first p]
  cases y p with
  | ok a q => rfl
  | error e q => exact second q

theorem ignoring (h : Notes y x) : Notes (ignoring y) (ignoring x) := by
  intro p
  rw [Effect.ignoring, Effect.ignoring, ← h p]
  cases y p <;> rfl

theorem each {f : α → Call ε σ Unit} {g : α → Call ε (σ × List ν) Unit}
    (h : ∀ a, Notes (g a) (f a)) (as : List α) : Notes (each g as) (each f as) := by
  induction as with
  | nil => exact pure ()
  | cons a as ih => exact (h a).bind fun _ => ih

theorem done {a : α} (h : Notes y x) (done : y p = .ok a q) : x p.1 = .ok a q.1 := by
  rw [← h p, done]
  rfl

/-- The call that keeps notes succeeds with the other one. -/
theorem ok {a : α} (h : Notes y x) (done : x p.1 = .ok a t) : ∃ l, y p = .ok a (t, l) := by
  rw [← h p] at done
  cases noted : y p with
  | ok b q =>
      rw [noted] at done
      obtain ⟨rfl, rfl⟩ := EStateM.Result.ok.inj done
      exact ⟨q.2, rfl⟩
  | error e q =>
      rw [noted] at done
      contradiction

end Notes

end Noting

end Effect
