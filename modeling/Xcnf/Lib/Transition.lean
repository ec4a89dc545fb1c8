import Mathlib.Tactic.Common

/-!
# Runs of labelled transition functions

A system is a partial function `step : σ → α → Option σ`: the action names everything
a scheduler or an environment may choose, and `none` says that the action is not
enabled. A run is a list of actions, so "every interleaving" is "every list".

`run_invariant` is the induction rule for properties of all reached states,
`run_invariant_along` its form for runs whose steps all meet a condition on the state
before the step, and `run_simulates` carries runs of one system to runs of another,
where one action may become any number of actions, none included. `run_simulates_history`
does so step by step, for a relation that may look at what both systems have done.
-/

namespace Transition

universe u v w x

variable {σ : Type u} {α : Type v} {τ : Type w} {β : Type x}

/-- Perform the actions in order, from `s`. -/
def run (step : σ → α → Option σ) (s : σ) (as : List α) : Option σ := as.foldlM step s

variable {step : σ → α → Option σ} {s t : σ}

@[simp] theorem run_nil : run step s [] = some s := rfl

theorem run_cons (a : α) (as : List α) :
    run step s (a :: as) = (step s a).bind fun m => run step m as := rfl

theorem run_cons_some {a : α} {as : List α} :
    run step s (a :: as) = some t ↔ ∃ m, step s a = some m ∧ run step m as = some t := by
  rw [run_cons, Option.bind_eq_some_iff]

theorem run_append (as bs : List α) :
    run step s (as ++ bs) = (run step s as).bind fun m => run step m bs :=
  List.foldlM_append

theorem run_single (a : α) : run step s [a] = step s a := by
  rw [run_cons]
  cases step s a <;> rfl

theorem run_snoc {as : List α} {a : α} {m : σ} (h : run step s as = some m)
    (next : step m a = some t) : run step s (as ++ [a]) = some t := by
  rw [run_append, h]
  exact (run_single a).trans next

/-- A run from a state without steps goes nowhere. -/
theorem run_stuck {as : List α} (stuck : ∀ a, step s a = none) (h : run step s as = some t) :
    t = s := by
  cases as with
  | nil => exact (Option.some.inj h).symm
  | cons a as =>
      rw [run_cons, stuck a] at h
      contradiction

/-- A property kept by every step holds in every state reached. -/
theorem run_invariant {Inv : σ → Prop}
    (keep : ∀ s a t, Inv s → step s a = some t → Inv t)
    {as : List α} (start : Inv s) (h : run step s as = some t) : Inv t := by
  induction as generalizing s with
  | nil => exact Option.some.inj h ▸ start
  | cons a as ih =>
      obtain ⟨m, hm, rest⟩ := run_cons_some.mp h
      exact ih (keep s a m start hm) rest

/-- Every step of the run meets `C` in the state it is taken from. -/
def Along (step : σ → α → Option σ) (C : σ → α → Prop) : σ → List α → Prop
  | _, [] => True
  | s, a :: as =>
      C s a ∧
        match step s a with
        | some m => Along step C m as
        | none => True

instance decidableAlong (step : σ → α → Option σ) (C : σ → α → Prop)
    [∀ s a, Decidable (C s a)] : ∀ s as, Decidable (Along step C s as)
  | _, [] => .isTrue trivial
  | s, a :: as =>
      match h : step s a with
      | some m =>
          have := decidableAlong step C m as
          decidable_of_iff (C s a ∧ Along step C m as) (by simp only [Along, h])
      | none => decidable_of_iff (C s a) (by simp only [Along, h, and_true])

theorem along_cons {C : σ → α → Prop} {a : α} {as : List α} {m : σ}
    (h : Along step C s (a :: as)) (hm : step s a = some m) : C s a ∧ Along step C m as := by
  refine ⟨h.1, ?_⟩
  have rest := h.2
  rwa [hm] at rest

/-- The invariant rule for the runs whose steps all meet `C`. -/
theorem run_invariant_along {Inv : σ → Prop} {C : σ → α → Prop}
    (keep : ∀ s a t, Inv s → C s a → step s a = some t → Inv t)
    {as : List α} (start : Inv s) (cond : Along step C s as)
    (h : run step s as = some t) : Inv t := by
  induction as generalizing s with
  | nil => exact Option.some.inj h ▸ start
  | cons a as ih =>
      obtain ⟨m, hm, rest⟩ := run_cons_some.mp h
      obtain ⟨now, later⟩ := along_cons cond hm
      exact ih (keep s a m start now hm) later rest

/-- What the last action adds to what the actions of a run show. -/
theorem filterMap_snoc (f : α → Option β) (as : List α) (a : α) :
    (as ++ [a]).filterMap f = as.filterMap f ++ (f a).toList := by
  rw [List.filterMap_append]
  cases h : f a <;> simp [h]

/-- The invariant rule for properties that speak of the actions performed so far. -/
theorem run_invariant_history {Inv : List α → σ → Prop}
    (keep : ∀ done s a t, Inv done s → step s a = some t → Inv (done ++ [a]) t)
    {done as : List α} (start : Inv done s) (h : run step s as = some t) : Inv (done ++ as) t := by
  induction as generalizing done s with
  | nil =>
      rw [List.append_nil]
      exact Option.some.inj h ▸ start
  | cons a as ih =>
      obtain ⟨m, hm, rest⟩ := run_cons_some.mp h
      have later := ih (keep done s a m start hm) rest
      rwa [List.append_assoc] at later

/-- If each step is matched by a run of the other system, and the matching may look at what
both have done so far, then one run of the other system goes along with the whole run. -/
theorem run_simulates_history {step' : τ → β → Option τ}
    {Rel : List α → List β → σ → τ → Prop}
    (simulate : ∀ {done done' s a t u}, Rel done done' s u → step s a = some t →
      ∃ bs v, run step' u bs = some v ∧ Rel (done ++ [a]) (done' ++ bs) t v)
    {done : List α} {done' : List β} {u : τ} (start : Rel done done' s u) {as : List α}
    (h : run step s as = some t) :
    ∃ bs : List β, ∀ front m, front <+: as → run step s front = some m →
      ∃ front' v, front' <+: bs ∧ run step' u front' = some v ∧
        Rel (done ++ front) (done' ++ front') m v := by
  induction as generalizing done done' s u with
  | nil =>
      refine ⟨[], fun front m before here => ⟨[], u, List.nil_prefix, rfl, ?_⟩⟩
      obtain rfl := List.prefix_nil.mp before
      obtain rfl := Option.some.inj here
      simpa only [List.append_nil] using start
  | cons a as ih =>
      obtain ⟨m, hm, rest⟩ := run_cons_some.mp h
      obtain ⟨bs, v, first, related⟩ := simulate start hm
      obtain ⟨cs, later⟩ := ih related rest
      refine ⟨bs ++ cs, fun front t' before here => ?_⟩
      cases front with
      | nil =>
          obtain rfl := Option.some.inj here
          exact ⟨[], u, List.nil_prefix, rfl, by simpa only [List.append_nil] using start⟩
      | cons b front =>
          obtain ⟨rfl, inside⟩ := List.cons_prefix_cons.mp before
          obtain ⟨m', hm', here⟩ := run_cons_some.mp here
          obtain rfl := Option.some.inj (hm.symm.trans hm')
          obtain ⟨front', w, before', run', related'⟩ := later front t' inside here
          refine ⟨bs ++ front', w, (List.prefix_append_right_inj bs).mpr before', ?_, ?_⟩
          · rw [run_append, first]
            exact run'
          · simpa only [List.append_assoc, List.singleton_append] using related'

end Transition
