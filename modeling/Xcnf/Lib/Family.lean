import Mathlib.Data.Set.Function
import Mathlib.Logic.Function.Basic

/-!
# Families of automata fed by one stream

Each input is addressed to one member of a family of identical automata. The run of
the family is a product of independent runs: member `i` sees exactly the inputs
addressed to it, whatever is interleaved with them (`feedAll_state`,
`feedAll_reports`), so inputs of different members may be exchanged.

`Represents` says that a keyed store holds one cell for each member that is not in its
resting state. It is kept by updating a cell, as long as the keys of the members in use
are different.
-/

namespace Family

universe u v w x y

variable {ι : Type u} {S : Type v} {A : Type w} {R : Type x}

/-- Feed one automaton, collecting its reports in order. -/
def feed (next : S → A → S × Option R) : S → List A → S × List R
  | s, [] => (s, [])
  | s, a :: as =>
      let rest := feed next (next s a).1 as
      (rest.1, (next s a).2.toList ++ rest.2)

variable (next : S → A → S × Option R)

theorem feed_cons (s : S) (a : A) (as : List A) :
    feed next s (a :: as) =
      ((feed next (next s a).1 as).1, (next s a).2.toList ++ (feed next (next s a).1 as).2) :=
  rfl

/-- An automaton that reports less about the same moves. -/
theorem feed_map {R' : Type*} {next' : S → A → S × Option R'} (g : R → R')
    (h : ∀ s a, next' s a = ((next s a).1, (next s a).2.map g)) (s : S) (as : List A) :
    feed next' s as = ((feed next s as).1, (feed next s as).2.map g) := by
  induction as generalizing s with
  | nil => rfl
  | cons a as ih =>
      rw [feed_cons, feed_cons, h, ih, List.map_append]
      cases (next s a).2 <;> rfl

section

variable [DecidableEq ι] (sel : A → ι)

/-- Feed a family: an input reaches the member it is addressed to, and no other. -/
def feedAll : (ι → S) → List A → (ι → S) × List (ι × R)
  | σ, [] => (σ, [])
  | σ, a :: as =>
      let moved := next (σ (sel a)) a
      let rest := feedAll (Function.update σ (sel a) moved.1) as
      (rest.1, (moved.2.map (sel a, ·)).toList ++ rest.2)

/-- The inputs addressed to one member. -/
def inputsOf (i : ι) (as : List A) : List A := as.filter fun a => sel a = i

/-- The reports of one member. -/
def reportsOf (i : ι) (rs : List (ι × R)) : List R :=
  rs.filterMap fun r => if r.1 = i then some r.2 else none

theorem inputsOf_cons_self (a : A) (as : List A) :
    inputsOf sel (sel a) (a :: as) = a :: inputsOf sel (sel a) as := by
  simp [inputsOf]

theorem inputsOf_cons_ne {i : ι} {a : A} (h : sel a ≠ i) (as : List A) :
    inputsOf sel i (a :: as) = inputsOf sel i as := by
  simp [inputsOf, h]

theorem inputsOf_inputsOf (i : ι) (as : List A) :
    inputsOf sel i (inputsOf sel i as) = inputsOf sel i as := by
  simp [inputsOf, List.filter_filter]

theorem reportsOf_append (i : ι) (rs rs' : List (ι × R)) :
    reportsOf i (rs ++ rs') = reportsOf i rs ++ reportsOf i rs' := List.filterMap_append

theorem reportsOf_self (i : ι) (r : Option R) : reportsOf i (r.map (i, ·)).toList = r.toList := by
  cases r <;> simp [reportsOf]

theorem reportsOf_ne {i j : ι} (h : j ≠ i) (r : Option R) :
    reportsOf i (r.map (j, ·)).toList = [] := by
  cases r <;> simp [reportsOf, h]

/-- Each member moves as if it were fed its own inputs alone. -/
theorem feedAll_eq (σ : ι → S) (as : List A) (i : ι) :
    (feedAll next sel σ as).1 i = (feed next (σ i) (inputsOf sel i as)).1 ∧
      reportsOf i (feedAll next sel σ as).2 = (feed next (σ i) (inputsOf sel i as)).2 := by
  induction as generalizing σ with
  | nil => exact ⟨rfl, rfl⟩
  | cons a as ih =>
      obtain ⟨state, reports⟩ := ih (Function.update σ (sel a) (next (σ (sel a)) a).1)
      by_cases h : sel a = i
      · subst i
        rw [Function.update_self] at state reports
        rw [inputsOf_cons_self, feed_cons]
        refine ⟨state, ?_⟩
        simp only [feedAll, reportsOf_append, reportsOf_self, reports]
      · rw [Function.update_of_ne (Ne.symm h)] at state reports
        rw [inputsOf_cons_ne sel h]
        refine ⟨state, ?_⟩
        simp only [feedAll, reportsOf_append, reportsOf_ne h, reports, List.nil_append]

theorem feedAll_state (σ : ι → S) (as : List A) (i : ι) :
    (feedAll next sel σ as).1 i = (feed next (σ i) (inputsOf sel i as)).1 :=
  (feedAll_eq next sel σ as i).1

theorem feedAll_reports (σ : ι → S) (as : List A) (i : ι) :
    reportsOf i (feedAll next sel σ as).2 = (feed next (σ i) (inputsOf sel i as)).2 :=
  (feedAll_eq next sel σ as i).2

/-- No member can tell in which order two neighbours of different members arrived. -/
theorem inputsOf_swap {a b : A} (h : sel a ≠ sel b) (front back : List A) (i : ι) :
    inputsOf sel i (front ++ a :: b :: back) = inputsOf sel i (front ++ b :: a :: back) := by
  simp only [inputsOf, List.filter_append, List.filter_cons]
  by_cases ha : sel a = i
  · have hb : sel b ≠ i := fun hb => h (ha.trans hb.symm)
    simp [ha, hb]
  · simp [ha]

end

/-! ## A family kept in a keyed store -/

variable {K : Type y} {V : Type v}

/-- The store has the cell `key i` exactly for the members `i` that are not resting,
with their state in it, and no cell besides. -/
def Represents (key : ι → K) (view : K → Option V) (σ : ι → Option V) : Prop :=
  ∀ k v, view k = some v ↔ ∃ i, key i = k ∧ σ i = some v

variable {key : ι → K} {view : K → Option V} {σ : ι → Option V} {used : Set ι}

theorem Represents.empty : Represents key (fun _ => none) (fun _ => (none : Option V)) := by
  intro k v
  simp

/-- The cell of a member in use shows that member's state and nobody else's. -/
theorem Represents.view_key (h : Represents key view σ) (inj : Set.InjOn key used)
    (support : ∀ j, σ j ≠ none → j ∈ used) {i : ι} (hi : i ∈ used) : view (key i) = σ i := by
  cases hv : view (key i) with
  | some v =>
      obtain ⟨j, hkey, hj⟩ := (h (key i) v).mp hv
      have hju : j ∈ used := support j (by rw [hj]; exact Option.some_ne_none v)
      rw [← inj hju hi hkey, hj]
  | none =>
      cases hs : σ i with
      | none => rfl
      | some v =>
          have := (h (key i) v).mpr ⟨i, rfl, hs⟩
          rw [hv] at this
          contradiction

/-- Moving one member and rewriting its cell keeps the two in step. -/
theorem Represents.update [DecidableEq ι] (h : Represents key view σ)
    (inj : Set.InjOn key used) (support : ∀ j, σ j ≠ none → j ∈ used) {i : ι} (hi : i ∈ used)
    (o : Option V) {view' : K → Option V} (here : view' (key i) = o)
    (elsewhere : ∀ k, k ≠ key i → view' k = view k) :
    Represents key view' (Function.update σ i o) := by
  intro k v
  by_cases hk : k = key i
  · subst hk
    rw [here]
    constructor
    · intro hv
      exact ⟨i, rfl, by rw [Function.update_self, hv]⟩
    · rintro ⟨j, hkey, hj⟩
      by_cases hji : j = i
      · subst hji
        rwa [Function.update_self] at hj
      · rw [Function.update_of_ne hji] at hj
        have hju : j ∈ used := support j (by rw [hj]; exact Option.some_ne_none v)
        exact absurd (inj hju hi hkey) hji
  · rw [elsewhere k hk, h k v]
    constructor
    · rintro ⟨j, hkey, hj⟩
      have hji : j ≠ i := fun e => hk (e ▸ hkey.symm)
      exact ⟨j, hkey, by rwa [Function.update_of_ne hji]⟩
    · rintro ⟨j, hkey, hj⟩
      have hji : j ≠ i := fun e => hk (e ▸ hkey.symm)
      rw [Function.update_of_ne hji] at hj
      exact ⟨j, hkey, hj⟩

end Family
