import Xcnf.Lib.Checked
import Xcnf.Lib.Region

/-!
# Byte strings with checked loads

A program that inspects a buffer of unknown length may only read below its end.
`load` and `load8` fault outside the buffer, so a program built from them that never
faults stays inside on every path. `peek` and `byteAt` are the total readings that
specifications use; they agree with the loads wherever a load succeeds.
-/

/-- A read outside the readable bytes. -/
inductive Fault where
  | outOfBounds (off len size : Nat)
  deriving DecidableEq, Repr

/-- A computation whose reads are checked. -/
abbrev Access := Except Fault

namespace Buffer

/-- The byte at `i`, zero past the end. -/
def byteAt (data : List UInt8) (i : Nat) : UInt8 := data.getD i 0

/-- The `n` bytes at `off`, padded with zeros past the end. -/
def peek (data : List UInt8) (off n : Nat) : Region n :=
  ⟨(data.drop off ++ List.replicate n 0).take n, by
    rw [List.length_take, List.length_append, List.length_replicate]
    omega⟩

def load8 (data : List UInt8) (i : Nat) : Access UInt8 :=
  if i < data.length then .ok (byteAt data i) else .error (.outOfBounds i 1 data.length)

def load (data : List UInt8) (off n : Nat) : Access (Region n) :=
  if off + n ≤ data.length then .ok (peek data off n)
  else .error (.outOfBounds off n data.length)

variable {data : List UInt8}

theorem load8_ok {i : Nat} (h : i < data.length) : load8 data i = .ok (byteAt data i) := if_pos h

theorem load_ok {off n : Nat} (h : off + n ≤ data.length) :
    load data off n = .ok (peek data off n) := if_pos h

theorem peek_bytes {off n : Nat} (h : off + n ≤ data.length) :
    (peek data off n).bytes = (data.drop off).take n := by
  simp only [peek]
  rw [List.take_append_of_le_length (by rw [List.length_drop]; omega)]

end Buffer
