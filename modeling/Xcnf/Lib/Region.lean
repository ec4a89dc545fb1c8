import Xcnf.Lib.ByteOrder

/-!
# Fixed-size regions of memory

A `Region n` is `n` bytes of storage: a local structure, a record being filled in, an
address or a machine word as it lies in memory. Stores carry the proof that they stay
inside the region, so a store past its end cannot be written down; a store may still
run from one field of a structure into the next, which is what the load laws make
visible.

The laws of `load` after `store` (same range, range before, range after, range cut in
two) are enough to evaluate any sequence of stores at constant offsets.
-/

/-- `n` bytes of memory. -/
@[ext] structure Region (n : Nat) where
  bytes : List UInt8
  size : bytes.length = n
  deriving DecidableEq, Repr

namespace Region

variable {n m : Nat}

/-- A zero-initialised region, as C's `= {0}` makes one. -/
def zero (n : Nat) : Region n := ⟨List.replicate n 0, List.length_replicate⟩

def ofByte (b : UInt8) : Region 1 := ⟨[b], rfl⟩

def ofWord16 (order : ByteOrder) (v : UInt16) : Region 2 := ⟨order.bytes16 v, by simp⟩

def ofWord32 (order : ByteOrder) (v : UInt32) : Region 4 := ⟨order.bytes32 v, by simp⟩

def ofWord64 (order : ByteOrder) (v : UInt64) : Region 8 := ⟨order.bytes64 v, by simp⟩

def toWord16 (r : Region 2) (order : ByteOrder) : UInt16 := order.word16 r.bytes

def toWord32 (r : Region 4) (order : ByteOrder) : UInt32 := order.word32 r.bytes

def toWord64 (r : Region 8) (order : ByteOrder) : UInt64 := order.word64 r.bytes

/-- A word copied through a register of its width keeps its bytes. -/
@[simp] theorem ofWord16_toWord16 (order : ByteOrder) (r : Region 2) :
    ofWord16 order (r.toWord16 order) = r := Region.ext (order.bytes16_word16 r.size)

@[simp] theorem ofWord32_toWord32 (order : ByteOrder) (r : Region 4) :
    ofWord32 order (r.toWord32 order) = r := Region.ext (order.bytes32_word32 r.size)

@[simp] theorem toWord16_ofWord16 (order : ByteOrder) (v : UInt16) :
    (ofWord16 order v).toWord16 order = v := order.word16_bytes16 v

@[simp] theorem toWord64_ofWord64 (order : ByteOrder) (v : UInt64) :
    (ofWord64 order v).toWord64 order = v := order.word64_bytes64 v

theorem bswap16_toWord16 (r : Region 2) :
    ByteOrder.bswap16 (r.toWord16 .little) = r.toWord16 .big := ByteOrder.bswap16_word16 r.size

theorem toWord64_little_ofWord64_big (v : UInt64) :
    (ofWord64 .big v).toWord64 .little = ByteOrder.bswap64 v :=
  ByteOrder.little_word64_big_bytes64 v

/-- Overwrite the bytes from `off` on with those of `v`. The bound is what a compiler
knows about a store at a constant offset. -/
def store (r : Region n) (off : Nat) (v : Region m) (fits : off + m ≤ n := by decide) : Region n :=
  ⟨r.bytes.take off ++ v.bytes ++ r.bytes.drop (off + m), by
    simp only [List.length_append, List.length_take, List.length_drop, r.size, v.size]
    omega⟩

/-- The `len` bytes at `off`, fewer when the region ends first. -/
def load (r : Region n) (off len : Nat) : List UInt8 := (r.bytes.drop off).take len

theorem load_length (r : Region n) {off len : Nat} (h : off + len ≤ n) :
    (r.load off len).length = len := by
  simp only [load, List.length_take, List.length_drop, r.size]
  omega

@[simp] theorem load_all (r : Region n) : r.load 0 n = r.bytes := by
  rw [load, List.drop_zero, List.take_of_length_le (Nat.le_of_eq r.size)]

/-- Cut a loaded range in two. -/
theorem load_add (r : Region n) (off a b : Nat) :
    r.load off (a + b) = r.load off a ++ r.load (off + a) b := by
  rw [load, List.take_add, List.drop_drop, load, load]

/-- A part of the region, as a region of its own. -/
def sub (r : Region n) (off len : Nat) (h : off + len ≤ n := by decide) : Region len :=
  ⟨r.load off len, r.load_length h⟩

theorem sub_eq_iff {r : Region n} {off len : Nat} {h : off + len ≤ n} {v : Region len} :
    r.sub off len h = v ↔ r.load off len = v.bytes :=
  ⟨congrArg Region.bytes, fun e => Region.ext e⟩

theorem sub_load {r : Region n} {off len : Nat} {h : off + len ≤ n} {place k : Nat}
    (hk : place + k ≤ len) : (r.sub off len h).load place k = r.load (off + place) k := by
  simp only [load, sub]
  rw [List.drop_take, List.take_take, List.drop_drop, Nat.min_eq_left (by omega)]

/-- One byte of the region. -/
def get (r : Region n) (i : Nat) (h : i < n := by decide) : UInt8 :=
  r.bytes.get ⟨i, by rw [r.size]; exact h⟩

theorem getElem?_bytes (r : Region n) {i : Nat} (h : i < n) : r.bytes[i]? = some (r.get i h) := by
  rw [get, List.get_eq_getElem, List.getElem?_eq_getElem]

theorem load_one (r : Region n) {i : Nat} (h : i < n) : r.load i 1 = [r.get i h] := by
  have hi : i < r.bytes.length := by rw [r.size]; exact h
  rw [load, List.drop_eq_getElem_cons hi]
  rfl

/-- A byte is known as soon as the one-byte load at its place is. -/
theorem get_eq_iff {r : Region n} {i : Nat} {h : i < n} {b : UInt8} :
    r.get i h = b ↔ r.load i 1 = [b] := by
  rw [load_one r h, List.cons.injEq]
  exact ⟨fun e => ⟨e, rfl⟩, And.left⟩

theorem length_take (r : Region n) {off : Nat} (h : off ≤ n) : (r.bytes.take off).length = off := by
  rw [List.length_take, r.size, Nat.min_eq_left h]

@[simp] theorem load_store_same (r : Region n) {off : Nat} {v : Region m} {fits : off + m ≤ n} :
    (r.store off v fits).load off m = v.bytes := by
  have hoff : (r.bytes.take off).length = off := r.length_take (by omega)
  have hm := v.size
  simp only [load, store, List.append_assoc]
  rw [List.drop_append_of_le_length (by omega), List.drop_of_length_le (by omega),
    List.nil_append, List.take_append_of_le_length (by omega), List.take_of_length_le (by omega)]

/-- A load inside the stored range reads a part of what was stored. -/
theorem load_store_inside (r : Region n) {off : Nat} {v : Region m} {fits : off + m ≤ n}
    {place len : Nat} (h : place + len ≤ m) :
    (r.store off v fits).load (off + place) len = v.load place len := by
  have whole : ((r.store off v fits).load off m).drop place = v.bytes.drop place := by
    rw [load_store_same]
  simp only [load, List.drop_take, List.drop_drop] at whole
  calc
    (r.store off v fits).load (off + place) len
      = (((r.store off v fits).bytes.drop (off + place)).take (m - place)).take len := by
        rw [load, List.take_take, Nat.min_eq_left (by omega)]
    _ = v.load place len := by rw [whole, load]

/-- A store is invisible to a load that ends where the store begins. -/
@[simp] theorem load_store_before (r : Region n) {off : Nat} {v : Region m} {fits : off + m ≤ n}
    {place len : Nat} (h : place + len ≤ off) :
    (r.store off v fits).load place len = r.load place len := by
  have hoff : (r.bytes.take off).length = off := r.length_take (by omega)
  simp only [load, store, List.append_assoc]
  rw [List.drop_append_of_le_length (by omega), List.take_append_of_le_length
    (by rw [List.length_drop]; omega), List.drop_take, List.take_take,
    Nat.min_eq_left (by omega)]

/-- A store is invisible to a load that begins where the store ends. -/
@[simp] theorem load_store_after (r : Region n) {off : Nat} {v : Region m} {fits : off + m ≤ n}
    {place len : Nat} (h : off + m ≤ place) :
    (r.store off v fits).load place len = r.load place len := by
  have hlen : (r.bytes.take off ++ v.bytes).length = off + m := by
    rw [List.length_append, r.length_take (by omega), v.size]
  simp only [load, store]
  rw [List.drop_append, List.drop_of_length_le (by omega), List.nil_append, hlen,
    List.drop_drop]
  congr 2
  omega

@[simp] theorem load_zero {off len : Nat} (h : off + len ≤ n) :
    (zero n).load off len = List.replicate len 0 := by
  rw [load, zero, List.drop_replicate, List.take_replicate]
  congr 1
  omega

/-- Regions are equal when they agree on both sides of a cut. -/
theorem ext_cut {r s : Region n} (k : Nat) (hk : k ≤ n) (low : r.load 0 k = s.load 0 k)
    (high : r.load k (n - k) = s.load k (n - k)) : r = s := by
  have cut (t : Region n) : t.bytes = t.load 0 k ++ t.load k (n - k) := by
    calc
      t.bytes = t.load 0 (k + (n - k)) := by rw [Nat.add_sub_cancel' hk, load_all]
      _ = t.load 0 k ++ t.load k (n - k) := by rw [load_add, Nat.zero_add]
  apply Region.ext
  rw [cut r, cut s, low, high]

end Region
