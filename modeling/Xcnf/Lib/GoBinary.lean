import Mathlib.Data.List.Basic
import Xcnf.Lib.GoSlice
import Xcnf.Lib.Region

/-!
# Regions and fixed-width integers in Go slices

A slice starts with a region when its first bytes are the region's. Indexing and slicing
inside the region then succeed, whatever follows it and whatever capacity the slice has.

The readers of `encoding/binary` touch the highest index they need first, so a short
slice panics there; on a slice that shows the bytes of a region they read its word.
-/

namespace GoSlice

variable {s : GoSlice UInt8} {n : Nat} {r : Region n}

def StartsWith (s : GoSlice UInt8) (r : Region n) : Prop := s.elems.take n = r.bytes

theorem ofList_startsWith (r : Region n) : (ofList r.bytes).StartsWith r := by
  rw [StartsWith, ofList_elems, List.take_of_length_le (Nat.le_of_eq r.size)]

/-- A slice that is long enough starts with some region. -/
theorem exists_startsWith (h : n ≤ s.len) : ∃ r : Region n, s.StartsWith r := by
  refine ⟨⟨s.elems.take n, ?_⟩, rfl⟩
  rw [List.length_take, s.elems_length, Nat.min_eq_left h]

theorem StartsWith.le_len (h : s.StartsWith r) : n ≤ s.len := by
  have hlen := congrArg List.length h
  rw [List.length_take, s.elems_length, r.size] at hlen
  omega

theorem StartsWith.index (h : s.StartsWith r) {i : Nat} (hi : i < n) :
    s.index i = .ok (r.get i hi) := by
  apply index_ok
  rw [← r.getElem?_bytes hi, ← h, List.getElem?_take_of_lt hi]

/-- A slice expression inside the region is a part of the region. -/
theorem StartsWith.slice (h : s.StartsWith r) (lo len : Nat) (hlen : lo + len ≤ n) :
    ∃ t, s.slice lo (lo + len) = .ok t ∧ t.elems = (r.sub lo len hlen).bytes := by
  have hs := h.le_len
  obtain ⟨t, ht, _, helems⟩ := s.slice_ok (Nat.le_add_right lo len) (by omega)
  refine ⟨t, ht, ?_⟩
  calc
    t.elems = (s.elems.drop lo).take len := by rw [helems, Nat.add_sub_cancel_left]
    _ = ((s.elems.take n).drop lo).take len := by
        rw [List.drop_take, List.take_take, Nat.min_eq_left (by omega)]
    _ = (r.sub lo len hlen).bytes := by
        rw [h]
        rfl

end GoSlice

namespace Binary

/-- `binary.BigEndian.Uint16`. -/
def bigEndianUint16 (b : GoSlice UInt8) : Go UInt16 := do
  let b1 ← b.index 1
  let b0 ← b.index 0
  return ByteOrder.big.word16 [b0, b1]

/-- `binary.LittleEndian.Uint16`. -/
def littleEndianUint16 (b : GoSlice UInt8) : Go UInt16 := do
  let b1 ← b.index 1
  let b0 ← b.index 0
  return ByteOrder.little.word16 [b0, b1]

/-- `binary.LittleEndian.Uint64`. -/
def littleEndianUint64 (b : GoSlice UInt8) : Go UInt64 := do
  let _ ← b.index 7
  return ByteOrder.little.word64 (b.elems.take 8)

variable {s : GoSlice UInt8}

/-- Both bytes of a two-byte slice are there. -/
theorem index_two {r : Region 2} (h : s.elems = r.bytes) :
    ∃ b0 b1, s.index 0 = .ok b0 ∧ s.index 1 = .ok b1 ∧ r.bytes = [b0, b1] := by
  obtain ⟨b0, b1, hr⟩ := List.length_eq_two.mp r.size
  refine ⟨b0, b1, GoSlice.index_ok ?_, GoSlice.index_ok ?_, hr⟩
  · rw [h, hr]
    rfl
  · rw [h, hr]
    rfl

theorem bigEndianUint16_eq {r : Region 2} (h : s.elems = r.bytes) :
    bigEndianUint16 s = .ok (r.toWord16 .big) := by
  obtain ⟨b0, b1, h0, h1, hr⟩ := index_two h
  rw [bigEndianUint16, h1, Checked.ok_bind, h0, Checked.ok_bind, Region.toWord16, hr]
  rfl

theorem littleEndianUint16_eq {r : Region 2} (h : s.elems = r.bytes) :
    littleEndianUint16 s = .ok (r.toWord16 .little) := by
  obtain ⟨b0, b1, h0, h1, hr⟩ := index_two h
  rw [littleEndianUint16, h1, Checked.ok_bind, h0, Checked.ok_bind, Region.toWord16, hr]
  rfl

theorem littleEndianUint64_eq {r : Region 8} (h : s.elems = r.bytes) :
    littleEndianUint64 s = .ok (r.toWord64 .little) := by
  have h7 : s.index 7 = .ok (r.get 7) := GoSlice.index_ok (by rw [h]; exact r.getElem?_bytes _)
  rw [littleEndianUint64, h7, Checked.ok_bind, h, List.take_of_length_le (by rw [r.size])]
  rfl

end Binary
