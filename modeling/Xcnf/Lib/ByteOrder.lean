import Mathlib.Algebra.Order.Ring.Nat

/-!
# Fixed-width byte encodings of naturals

`encode order n v` lays the low `8 * n` bits of `v` out in `n` bytes, and `decode`
reads bytes back. The two orders differ only by a reversal, so every law is proved
once for the little-endian order and carried over.

Words of a particular machine type are obtained by truncating the decoded natural;
`decode_lt` says that nothing is lost when the width agrees.
-/

/-- The order in which a target stores the bytes of a word. -/
inductive ByteOrder where
  | little
  | big
  deriving DecidableEq, Repr

namespace ByteOrder

/-- The `n` bytes of `v`, least significant byte first. -/
def encodeLittle : Nat → Nat → List UInt8
  | 0, _ => []
  | n + 1, v => UInt8.ofNat v :: encodeLittle n (v / 256)

/-- The number whose bytes are given, least significant byte first. -/
def decodeLittle : List UInt8 → Nat
  | [] => 0
  | b :: bs => b.toNat + 256 * decodeLittle bs

def encode (order : ByteOrder) (n v : Nat) : List UInt8 :=
  match order with
  | .little => encodeLittle n v
  | .big => (encodeLittle n v).reverse

def decode (order : ByteOrder) (bs : List UInt8) : Nat :=
  match order with
  | .little => decodeLittle bs
  | .big => decodeLittle bs.reverse

@[simp] theorem encodeLittle_length (n v : Nat) : (encodeLittle n v).length = n := by
  induction n generalizing v with
  | zero => rfl
  | succ n ih => rw [encodeLittle, List.length_cons, ih]

@[simp] theorem encode_length (order : ByteOrder) (n v : Nat) :
    (order.encode n v).length = n := by
  cases order <;> simp [encode]

theorem decodeLittle_lt (bs : List UInt8) : decodeLittle bs < 256 ^ bs.length := by
  induction bs with
  | nil => simp [decodeLittle]
  | cons b bs ih =>
      have hb : b.toNat < 256 := b.toNat_lt
      rw [decodeLittle, List.length_cons, pow_succ]
      omega

/-- A decoded number fits the width it was read from. -/
theorem decode_lt (order : ByteOrder) (bs : List UInt8) :
    order.decode bs < 256 ^ bs.length := by
  cases order with
  | little => exact decodeLittle_lt bs
  | big => simpa only [decode, List.length_reverse] using decodeLittle_lt bs.reverse

theorem encodeLittle_decodeLittle (bs : List UInt8) :
    encodeLittle bs.length (decodeLittle bs) = bs := by
  induction bs with
  | nil => rfl
  | cons b bs ih =>
      have hb : b.toNat < 256 := b.toNat_lt
      have low : UInt8.ofNat (b.toNat + 256 * decodeLittle bs) = b := by
        apply UInt8.toNat_inj.mp
        rw [UInt8.toNat_ofNat']
        omega
      have high : (b.toNat + 256 * decodeLittle bs) / 256 = decodeLittle bs := by omega
      rw [decodeLittle, List.length_cons, encodeLittle, low, high, ih]

/-- Storing a loaded word puts back exactly the bytes that were loaded. -/
theorem encode_decode (order : ByteOrder) {n : Nat} {bs : List UInt8} (hn : bs.length = n) :
    order.encode n (order.decode bs) = bs := by
  subst n
  cases order with
  | little => exact encodeLittle_decodeLittle bs
  | big =>
      have h := encodeLittle_decodeLittle bs.reverse
      rw [List.length_reverse] at h
      simp only [encode, decode, h, List.reverse_reverse]

theorem decodeLittle_encodeLittle {n v : Nat} (hv : v < 256 ^ n) :
    decodeLittle (encodeLittle n v) = v := by
  induction n generalizing v with
  | zero =>
      have : v = 0 := by simpa using hv
      rw [encodeLittle, decodeLittle, this]
  | succ n ih =>
      have hdiv : v / 256 < 256 ^ n := by
        apply Nat.div_lt_of_lt_mul
        rwa [Nat.mul_comm, ← pow_succ]
      rw [encodeLittle, decodeLittle, ih hdiv, UInt8.toNat_ofNat']
      omega

/-- Loading a stored word gives the word back, as long as it fits the width. -/
theorem decode_encode (order : ByteOrder) {n v : Nat} (hv : v < 256 ^ n) :
    order.decode (order.encode n v) = v := by
  cases order with
  | little => exact decodeLittle_encodeLittle hv
  | big => simpa only [encode, decode, List.reverse_reverse] using decodeLittle_encodeLittle hv

/-- The order of the other kind of target. -/
def swap : ByteOrder → ByteOrder
  | .little => .big
  | .big => .little

theorem decode_swap (order : ByteOrder) (bs : List UInt8) :
    order.swap.decode bs = order.decode bs.reverse := by
  cases order <;> simp [swap, decode]

theorem encode_swap (order : ByteOrder) (n v : Nat) :
    order.swap.encode n v = (order.encode n v).reverse := by
  cases order <;> simp [swap, encode]

/-! ## Machine words -/

def word16 (order : ByteOrder) (bs : List UInt8) : UInt16 := UInt16.ofNat (order.decode bs)

def word32 (order : ByteOrder) (bs : List UInt8) : UInt32 := UInt32.ofNat (order.decode bs)

def word64 (order : ByteOrder) (bs : List UInt8) : UInt64 := UInt64.ofNat (order.decode bs)

def bytes16 (order : ByteOrder) (v : UInt16) : List UInt8 := order.encode 2 v.toNat

def bytes32 (order : ByteOrder) (v : UInt32) : List UInt8 := order.encode 4 v.toNat

def bytes64 (order : ByteOrder) (v : UInt64) : List UInt8 := order.encode 8 v.toNat

@[simp] theorem bytes16_length (order : ByteOrder) (v : UInt16) :
    (order.bytes16 v).length = 2 := order.encode_length 2 _

@[simp] theorem bytes32_length (order : ByteOrder) (v : UInt32) :
    (order.bytes32 v).length = 4 := order.encode_length 4 _

@[simp] theorem bytes64_length (order : ByteOrder) (v : UInt64) :
    (order.bytes64 v).length = 8 := order.encode_length 8 _

/-- Copying a field through a 16-bit register moves its bytes unchanged. -/
theorem bytes16_word16 (order : ByteOrder) {bs : List UInt8} (h : bs.length = 2) :
    order.bytes16 (order.word16 bs) = bs := by
  have hlt : order.decode bs < 2 ^ 16 := by simpa [h] using order.decode_lt bs
  rw [bytes16, word16, UInt16.toNat_ofNat_of_lt' hlt, order.encode_decode h]

theorem bytes32_word32 (order : ByteOrder) {bs : List UInt8} (h : bs.length = 4) :
    order.bytes32 (order.word32 bs) = bs := by
  have hlt : order.decode bs < 2 ^ 32 := by simpa [h] using order.decode_lt bs
  rw [bytes32, word32, UInt32.toNat_ofNat_of_lt' hlt, order.encode_decode h]

theorem bytes64_word64 (order : ByteOrder) {bs : List UInt8} (h : bs.length = 8) :
    order.bytes64 (order.word64 bs) = bs := by
  have hlt : order.decode bs < 2 ^ 64 := by simpa [h] using order.decode_lt bs
  rw [bytes64, word64, UInt64.toNat_ofNat_of_lt' hlt, order.encode_decode h]

@[simp] theorem word16_bytes16 (order : ByteOrder) (v : UInt16) :
    order.word16 (order.bytes16 v) = v := by
  rw [word16, bytes16, order.decode_encode (by simpa using v.toNat_lt), UInt16.ofNat_toNat]

@[simp] theorem word64_bytes64 (order : ByteOrder) (v : UInt64) :
    order.word64 (order.bytes64 v) = v := by
  rw [word64, bytes64, order.decode_encode (by simpa using v.toNat_lt), UInt64.ofNat_toNat]

theorem word16_injective (order : ByteOrder) {xs ys : List UInt8} (hx : xs.length = 2)
    (hy : ys.length = 2) (h : order.word16 xs = order.word16 ys) : xs = ys := by
  rw [← order.bytes16_word16 hx, ← order.bytes16_word16 hy, h]

theorem word64_injective (order : ByteOrder) {xs ys : List UInt8} (hx : xs.length = 8)
    (hy : ys.length = 8) (h : order.word64 xs = order.word64 ys) : xs = ys := by
  rw [← order.bytes64_word64 hx, ← order.bytes64_word64 hy, h]

/-- `__builtin_bswap16`: the same two bytes, read in the other order. -/
def bswap16 (v : UInt16) : UInt16 := big.word16 (little.bytes16 v)

/-- `__builtin_bswap64`: the same eight bytes, read in the other order. -/
def bswap64 (v : UInt64) : UInt64 := big.word64 (little.bytes64 v)

theorem bswap16_word16 {bs : List UInt8} (h : bs.length = 2) :
    bswap16 (little.word16 bs) = big.word16 bs := by
  rw [bswap16, bytes16_word16 little h]

theorem little_word64_big_bytes64 (v : UInt64) :
    little.word64 (big.bytes64 v) = bswap64 v := by
  have h : big.bytes64 v = (little.bytes64 v).reverse := little.encode_swap 8 v.toNat
  rw [bswap64, h, word64, word64, ← little.decode_swap]
  rfl

theorem bswap64_injective : Function.Injective bswap64 := by
  intro v w h
  have hb := big.word64_injective (by simp) (by simp) h
  rw [← little.word64_bytes64 v, hb, little.word64_bytes64]

end ByteOrder
