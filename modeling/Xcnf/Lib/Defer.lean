import Xcnf.Lib.Effect

/-!
# Deferred releases

`deferring` acquires something, goes on with a body, and releases what it has acquired in the
end, whether the body fails or not; errors of the release are dropped. Scopes are nested by
nesting the bodies.

Where each call leaves a note of what it has returned, `Unwinds` says of a computation which calls
it makes for which result, and that it then releases what it has acquired by them, in the
opposite order. The notes are kept latest first.
-/

namespace Effect

variable {ε ε' σ ν α β : Type}

def deferring (acquire : Call ε σ α) (release : α → Call ε' σ Unit) (body : α → Call ε σ β) :
    Call ε σ β := fun s =>
  match acquire s with
  | .error e m => .error e m
  | .ok a m =>
    match body a m with
    | .ok b t => .ok b (final (release a t))
    | .error e t => .error e (final (release a t))

section

variable {acquire : Call ε σ α} {release : α → Call ε' σ Unit} {body : α → Call ε σ β}
variable {s t : σ}

theorem deferring_of_error {e : ε} (h : acquire s = .error e t) :
    deferring acquire release body s = .error e t := by
  rw [deferring, h]

/-- What is acquired is released in the state that the body leaves behind. -/
theorem final_deferring_of_ok {a : α} (h : acquire s = .ok a t) :
    final (deferring acquire release body s) = final (release a (final (body a t))) := by
  rw [deferring, h]
  dsimp only
  cases body a t <;> rfl

/-- The release has no say in the result. -/
theorem outcome_deferring_of_ok {a : α} (h : acquire s = .ok a t) :
    outcome (deferring acquire release body s) = outcome (body a t) := by
  rw [deferring, h]
  dsimp only
  cases body a t <;> rfl

/-- Either nothing is acquired, or it is released in the state that the body leaves behind. -/
theorem final_deferring {P : σ → Prop} (failed : ∀ e m, acquire s = .error e m → P m)
    (released : ∀ a m, acquire s = .ok a m → P (final (release a (final (body a m))))) :
    P (final (deferring acquire release body s)) := by
  cases h : acquire s with
  | error e m =>
      rw [deferring_of_error h]
      exact failed e m h
  | ok a m =>
      rw [final_deferring_of_ok h]
      exact released a m h

theorem Keeps.deferring {I : σ → Prop} (hacquire : Keeps I acquire)
    (hrelease : ∀ a, Keeps I (release a)) (hbody : ∀ a, Keeps I (body a)) :
    Keeps I (deferring acquire release body) := by
  intro s hs
  have first := hacquire s hs
  apply final_deferring
  · intro e m h
    rwa [h] at first
  · intro a m h
    rw [h] at first
    exact hrelease a _ (hbody a m first)

end

/-! ## What is released -/

/-- The call leaves one note, of what was returned before the error was wrapped. -/
structure Logs (note : Except ε α → ν) (wrap : ε → ε') (x : Call ε' (σ × List ν) α) : Prop where
  ok : ∀ {p a q}, x p = .ok a q → q.2 = note (.ok a) :: p.2
  error : ∀ {p e' q}, x p = .error e' q → ∃ e, wrap e = e' ∧ q.2 = note (.error e) :: p.2

/-- A group of releases, each with its two possible notes: they are made in this order, up to
the first that fails. -/
inductive Left : List (Bool → ν) → List ν → Prop where
  | nil : Left [] []
  | failed {note group} : Left (note :: group) [note false]
  | released {note group notes} (rest : Left group notes) :
      Left (note :: group) (note true :: notes)

/-- Groups inside one another: the last one is left first. -/
inductive Unwound : List (List (Bool → ν)) → List ν → Prop where
  | nil : Unwound [] []
  | cons {group groups inner outer} (within : Unwound groups inner) (left : Left group outer) :
      Unwound (group :: groups) (inner ++ outer)

/-- The computation notes its calls, and then the releases of what it has acquired by them.
`Spec` relates its result, the notes of its calls and the groups that it has to release. -/
def Unwinds (Spec : Except ε α → List ν → List (List (Bool → ν)) → Prop)
    (x : Call ε (σ × List ν) α) : Prop :=
  ∀ p, ∃ calls groups releases, Spec (outcome (x p)) calls groups ∧ Unwound groups releases ∧
    (final (x p)).2 = (calls ++ releases).reverse ++ p.2

/-- The computation notes the releases of a group. -/
def Leaves (group : List (Bool → ν)) (x : Call ε (σ × List ν) Unit) : Prop :=
  ∀ p, ∃ notes, Left group notes ∧ (final (x p)).2 = notes.reverse ++ p.2

theorem Logs.logging (note : Except ε α → ν) (x : Call ε σ α) :
    Logs note id (logging note x) := by
  constructor
  · intro p a q h
    rw [Effect.logging] at h
    cases hx : x p.1 <;> rw [hx] at h <;> cases h
    rfl
  · intro p e q h
    rw [Effect.logging] at h
    cases hx : x p.1 <;> rw [hx] at h <;> cases h
    exact ⟨e, rfl, rfl⟩

theorem Logs.wrapping {note : Except ε α → ν} {x : Call ε (σ × List ν) α} (h : Logs note id x)
    (wrap : ε → ε') : Logs note wrap (wrapping wrap x) := by
  constructor
  · exact fun ok => h.ok (wrapping_ok.mp ok)
  · intro p e' q wrapped
    obtain ⟨e, inner, rfl⟩ := wrapping_error.mp wrapped
    obtain ⟨_, rfl, log⟩ := h.error inner
    exact ⟨_, rfl, log⟩

/-- A change of the state does not fail. -/
theorem Logs.modify (f : σ → σ) (note : ν) :
    Logs (fun _ : Except Empty Unit => note) Empty.elim
      (modify fun p => (f p.1, note :: p.2) : Call ε (σ × List ν) Unit) := by
  constructor
  · intro p _ q h
    cases h
    rfl
  · intro p e q h
    contradiction

theorem Leaves.single {note : Bool → ν} {wrap : ε → ε'} {x : Call ε' (σ × List ν) Unit}
    (h : Logs (note ∘ Except.isOk) wrap x) : Leaves [note] x := by
  intro p
  cases made : x p with
  | ok a q => exact ⟨[note true], .released .nil, h.ok made⟩
  | error e' q =>
      obtain ⟨e, _, log⟩ := h.error made
      exact ⟨[note false], .failed, log⟩

theorem Leaves.modify (f : σ → σ) (note : ν) :
    Leaves [fun _ => note] (modify fun p => (f p.1, note :: p.2) : Call ε (σ × List ν) Unit) :=
  fun _ => ⟨[note], .released .nil, rfl⟩

theorem Leaves.each {f : α → Call ε (σ × List ν) Unit} {note : α → Bool → ν}
    (h : ∀ a, Logs (note a ∘ Except.isOk) id (f a)) (as : List α) :
    Leaves (as.map note) (each f as) := by
  induction as with
  | nil => exact fun p => ⟨[], .nil, rfl⟩
  | cons a as ih =>
      intro p
      rw [Effect.each, bind_apply]
      cases made : f a p with
      | ok _ q =>
          obtain ⟨notes, left, log⟩ := ih q
          refine ⟨note a true :: notes, .released left, ?_⟩
          rw [log, (h a).ok made, List.reverse_cons, List.append_assoc]
          rfl
      | error e' q =>
          obtain ⟨e, _, log⟩ := (h a).error made
          exact ⟨[note a false], .failed, log⟩

namespace Unwinds

variable {Spec : Except ε' β → List ν → List (List (Bool → ν)) → Prop}
variable {note : Except ε α → ν} {wrap : ε → ε'}

/-- A call comes first, and nothing is to be released for it. -/
theorem bind {x : Call ε' (σ × List ν) α} {f : α → Call ε' (σ × List ν) β}
    (first : Logs note wrap x) (stop : ∀ e, Spec (.error (wrap e)) [note (.error e)] [])
    (rest : ∀ a, Unwinds (fun r calls => Spec r (note (.ok a) :: calls)) (f a)) :
    Unwinds Spec (x >>= f) := by
  intro p
  rw [bind_apply]
  cases made : x p with
  | error e' q =>
      obtain ⟨e, rfl, log⟩ := first.error made
      exact ⟨[note (.error e)], [], [], stop e, .nil, log⟩
  | ok a q =>
      obtain ⟨calls, groups, releases, spec, unwound, log⟩ := rest a q
      refine ⟨note (.ok a) :: calls, groups, releases, spec, unwound, ?_⟩
      rw [log, first.ok made, List.cons_append, List.reverse_cons, List.append_assoc]
      rfl

/-- A call is the last one. -/
theorem last {note : Except ε β → ν} {x : Call ε' (σ × List ν) β} (only : Logs note wrap x)
    (stop : ∀ e, Spec (.error (wrap e)) [note (.error e)] [])
    (ok : ∀ b, Spec (.ok b) [note (.ok b)] []) : Unwinds Spec x := by
  intro p
  cases made : x p with
  | error e' q =>
      obtain ⟨e, rfl, log⟩ := only.error made
      exact ⟨[note (.error e)], [], [], stop e, .nil, log⟩
  | ok b q => exact ⟨[note (.ok b)], [], [], ok b, .nil, only.ok made⟩

/-- A call comes first, and a group is released for it in the end. -/
theorem deferring {ε'' : Type} {acquire : Call ε' (σ × List ν) α}
    {release : α → Call ε'' (σ × List ν) Unit} {body : α → Call ε' (σ × List ν) β}
    {group : α → List (Bool → ν)} (first : Logs note wrap acquire)
    (stop : ∀ e, Spec (.error (wrap e)) [note (.error e)] [])
    (leaves : ∀ a, Leaves (group a) (release a))
    (within : ∀ a, Unwinds
      (fun r calls groups => Spec r (note (.ok a) :: calls) (group a :: groups)) (body a)) :
    Unwinds Spec (deferring acquire release body) := by
  intro p
  cases made : acquire p with
  | error e' q =>
      obtain ⟨e, rfl, log⟩ := first.error made
      rw [deferring_of_error made]
      exact ⟨[note (.error e)], [], [], stop e, .nil, log⟩
  | ok a q =>
      obtain ⟨calls, groups, releases, spec, unwound, log⟩ := within a q
      obtain ⟨notes, left, log'⟩ := leaves a (final (body a q))
      refine ⟨note (.ok a) :: calls, group a :: groups, releases ++ notes, ?_,
        .cons unwound left, ?_⟩
      · rw [outcome_deferring_of_ok made]
        exact spec
      · rw [final_deferring_of_ok made, log', log, first.ok made]
        simp only [List.cons_append, List.reverse_cons, List.reverse_append, List.append_assoc,
          List.nil_append]

end Unwinds

/-- Deferred releases note what they do too. -/
theorem Notes.deferring {y : Call ε (σ × List ν) α} {x : Call ε σ α}
    {g : α → Call ε' (σ × List ν) Unit} {f : α → Call ε' σ Unit}
    {body' : α → Call ε (σ × List ν) β} {body : α → Call ε σ β} (first : Notes y x)
    (release : ∀ a, Notes (g a) (f a)) (rest : ∀ a, Notes (body' a) (body a)) :
    Notes (deferring y g body') (deferring x f body) := by
  have released (a : α) (q : σ × List ν) : (final (g a q)).1 = final (f a q.1) := by
    rw [← release a q]
    cases g a q <;> rfl
  intro p
  rw [Effect.deferring, Effect.deferring, ← first p]
  cases y p with
  | error e q => rfl
  | ok a q =>
      dsimp only [forget]
      rw [← rest a q]
      cases body' a q with
      | ok b t => exact congrArg (EStateM.Result.ok b) (released a t)
      | error e t => exact congrArg (EStateM.Result.error e) (released a t)

end Effect
