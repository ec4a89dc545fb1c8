import Xcnf.Lib.Checked

/-!
# Go slices and run-time panics

A Go slice sees the elements of its backing array up to its length, while slice
expressions are checked against its capacity. `backing` holds every element from the
slice's first one to the end of its capacity, so the elements past `len` are there to
be read by a slice expression that reaches beyond the length.

Only reads are modelled: the slices of interest are decoded, never written.
-/

/-- The run-time errors of indexing and slicing. -/
inductive GoPanic where
  | indexOutOfRange (i len : Nat)
  | sliceBoundsOutOfRange (lo hi cap : Nat)
  deriving DecidableEq, Repr

/-- A Go computation that may panic. -/
abbrev Go := Except GoPanic

structure GoSlice (α : Type) where
  backing : List α
  len : Nat
  len_le : len ≤ backing.length
  deriving DecidableEq, Repr

namespace GoSlice

variable {α : Type}

def cap (s : GoSlice α) : Nat := s.backing.length

/-- The elements the slice shows. -/
def elems (s : GoSlice α) : List α := s.backing.take s.len

/-- A slice with no spare capacity. -/
def ofList (xs : List α) : GoSlice α := ⟨xs, xs.length, Nat.le_refl _⟩

@[simp] theorem ofList_elems (xs : List α) : (ofList xs).elems = xs := List.take_length

@[simp] theorem elems_length (s : GoSlice α) : s.elems.length = s.len := by
  rw [elems, List.length_take, Nat.min_eq_left s.len_le]

/-- The index expression `s[i]`, checked against the length. -/
def index (s : GoSlice α) (i : Nat) : Go α :=
  match s.elems[i]? with
  | some x => .ok x
  | none => .error (.indexOutOfRange i s.len)

/-- The slice expression `s[lo:hi]`, checked against the capacity. -/
def slice (s : GoSlice α) (lo hi : Nat) : Go (GoSlice α) :=
  if h : lo ≤ hi ∧ hi ≤ s.cap then
    .ok ⟨s.backing.drop lo, hi - lo, by
      rw [List.length_drop]
      exact Nat.sub_le_sub_right h.2 lo⟩
  else .error (.sliceBoundsOutOfRange lo hi s.cap)

theorem index_ok {s : GoSlice α} {i : Nat} {x : α} (h : s.elems[i]? = some x) :
    s.index i = .ok x := by
  rw [index, h]

/-- A slice expression inside the length shows a part of what the slice shows. -/
theorem slice_ok (s : GoSlice α) {lo hi : Nat} (hlo : lo ≤ hi) (hhi : hi ≤ s.len) :
    ∃ t, s.slice lo hi = .ok t ∧ t.len = hi - lo ∧ t.elems = (s.elems.drop lo).take (hi - lo) := by
  refine ⟨_, dif_pos ⟨hlo, Nat.le_trans hhi s.len_le⟩, rfl, ?_⟩
  simp only [elems]
  rw [List.drop_take, List.take_take]
  congr 1
  omega

/-- A slice expression that succeeds has the length asked for. -/
theorem slice_len {s t : GoSlice α} {lo hi : Nat} (h : s.slice lo hi = .ok t) :
    t.len = hi - lo := by
  rw [slice] at h
  split at h
  · exact congrArg len (Except.ok.inj h).symm
  · contradiction

/-! ## Reading past the length -/

theorem index_lt {s : GoSlice α} {i : Nat} {x : α} (h : s.index i = .ok x) : i < s.len := by
  rw [index] at h
  split at h
  next y shown =>
      have bound := (List.getElem?_eq_some_iff.mp shown).1
      rwa [s.elems_length] at bound
  next => contradiction

theorem slice_le_cap {s t : GoSlice α} {lo hi : Nat} (h : s.slice lo hi = .ok t) : hi ≤ s.cap := by
  rw [slice] at h
  split at h
  next bounds => exact bounds.2
  next => contradiction

/-- The slice `s[:cap(s)]`. -/
def upToCap (s : GoSlice α) : GoSlice α := ⟨s.backing, s.cap, Nat.le_refl _⟩

@[simp] theorem upToCap_elems (s : GoSlice α) : s.upToCap.elems = s.backing := List.take_length

/-- A slice expression does not look at the length. -/
theorem slice_upToCap (s : GoSlice α) (lo hi : Nat) : s.upToCap.slice lo hi = s.slice lo hi := rfl

theorem index_upToCap (s : GoSlice α) {i : Nat} (h : i < s.len) :
    s.upToCap.index i = s.index i := by
  have bound : i < s.elems.length := by rwa [s.elems_length]
  have shown : s.elems[i]? = some s.elems[i] := List.getElem?_eq_getElem bound
  rw [index_ok shown, index_ok]
  rw [upToCap_elems, ← shown, elems, List.getElem?_take_of_lt h]

end GoSlice
