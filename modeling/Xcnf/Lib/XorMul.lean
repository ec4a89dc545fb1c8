import Mathlib.Tactic.Common

/-!
# Xor-and-multiply hashes

A state of 64 bits absorbs a string byte by byte: the byte is xored into the low end of
the state, and the state is multiplied by a constant. As long as the constant has an
inverse, each round is a bijection of the states, so two states that differ once differ
for ever (`absorb_injective`), and strings that differ in one byte are told apart
(`absorb_one_byte`).

Two differing bytes in a row could cancel. They do not when the constant is neither
too small nor too large: the difference of two states that differ in the low byte only is
then carried out of the low byte by the multiplication (`absorb_two_bytes`).
-/

namespace XorMul

/-- The constant of a hash. -/
structure Multiplier where
  value : UInt64
  inverse : UInt64
  unit : value * inverse = 1
  /-- A multiple of it by less than a byte is neither short of a byte nor within a byte of
  wrapping around. -/
  low : 256 ≤ value.toNat
  high : 255 * value.toNat + 256 ≤ UInt64.size

variable (p : Multiplier)

def round (h : UInt64) (b : UInt8) : UInt64 := (h ^^^ b.toUInt64) * p.value

def absorb (h : UInt64) (bs : List UInt8) : UInt64 := bs.foldl (round p) h

theorem absorb_cons (h : UInt64) (b : UInt8) (bs : List UInt8) :
    absorb p h (b :: bs) = absorb p (round p h b) bs := rfl

theorem absorb_append (h : UInt64) (xs ys : List UInt8) :
    absorb p h (xs ++ ys) = absorb p (absorb p h xs) ys := List.foldl_append

/-! ## One differing byte -/

theorem mul_injective {x y : UInt64} (h : x * p.value = y * p.value) : x = y := by
  have undo (z : UInt64) : z * p.value * p.inverse = z := by
    rw [UInt64.mul_assoc, p.unit, UInt64.mul_one]
  rw [← undo x, h, undo y]

/-- A round forgets nothing about the state. -/
theorem round_state_injective {h k : UInt64} {b : UInt8} (e : round p h b = round p k b) : h = k :=
  (UInt64.xor_left_inj _).mp (mul_injective p e)

/-- A round forgets nothing about the byte. -/
theorem round_byte_injective {h : UInt64} {b c : UInt8} (e : round p h b = round p h c) :
    b = c := by
  have widened : b.toUInt64 = c.toUInt64 := (UInt64.xor_right_inj _).mp (mul_injective p e)
  have same := congrArg UInt64.toNat widened
  rw [UInt8.toNat_toUInt64, UInt8.toNat_toUInt64] at same
  exact UInt8.toNat_inj.mp same

/-- Two states stay apart, whatever they absorb. -/
theorem absorb_injective {h k : UInt64} (bs : List UInt8) (e : absorb p h bs = absorb p k bs) :
    h = k := by
  induction bs generalizing h k with
  | nil => exact e
  | cons b bs ih => exact round_state_injective p (ih e)

/-- Strings that agree but for one place agree there if they are absorbed alike. -/
theorem absorb_one_byte {h : UInt64} {front back : List UInt8} {b c : UInt8}
    (e : absorb p h (front ++ b :: back) = absorb p h (front ++ c :: back)) : b = c := by
  rw [absorb_append, absorb_append, absorb_cons, absorb_cons] at e
  exact round_byte_injective p (absorb_injective p back e)

/-! ## Two differing bytes in a row -/

/-- A byte only reaches the low end of the state. -/
theorem xor_byte_div (h : UInt64) (b : UInt8) :
    (h ^^^ b.toUInt64).toNat / 256 = h.toNat / 256 := by
  have small : b.toNat / 2 ^ 8 = 0 := Nat.div_eq_of_lt b.toNat_lt
  rw [UInt64.toNat_xor, UInt8.toNat_toUInt64]
  change (h.toNat ^^^ b.toNat) / 2 ^ 8 = h.toNat / 2 ^ 8
  rw [Nat.xor_div_two_pow, small, Nat.xor_zero]

/-- States that differ in the low byte only are carried further apart, so if their
multiples differ in the low byte only they were the same. -/
theorem eq_of_mul_div_eq {x y : UInt64} (near : x.toNat / 256 = y.toNat / 256)
    (same : (x * p.value).toNat / 256 = (y * p.value).toNat / 256) : x = y := by
  have ordered {x y : UInt64} (near : x.toNat / 256 = y.toNat / 256)
      (same : (x * p.value).toNat / 256 = (y * p.value).toNat / 256) (le : y.toNat ≤ x.toNat) :
      x = y := by
    by_contra ne
    have apart : y.toNat ≠ x.toNat := fun e => ne (UInt64.toNat_inj.mp e).symm
    obtain ⟨d, hd⟩ := Nat.exists_eq_add_of_le le
    have dpos : 1 ≤ d := by omega
    have dsmall : d ≤ 255 := by omega
    have low : p.value.toNat ≤ d * p.value.toNat := Nat.le_mul_of_pos_left _ dpos
    have high : d * p.value.toNat ≤ 255 * p.value.toNat := Nat.mul_le_mul_right _ dsmall
    have plow := p.low
    have phigh : 255 * p.value.toNat + 256 ≤ 2 ^ 64 := p.high
    rw [UInt64.toNat_mul, UInt64.toNat_mul, hd, Nat.add_mul] at same
    omega
  rcases Nat.le_total y.toNat x.toNat with le | le
  · exact ordered near same le
  · exact (ordered near.symm same.symm le).symm

/-- Strings of two bytes are absorbed alike only if they are the same. -/
theorem absorb_two_bytes {h : UInt64} {b b' c c' : UInt8}
    (e : absorb p h [b, b'] = absorb p h [c, c']) : b = c ∧ b' = c' := by
  have last : round p h b ^^^ b'.toUInt64 = round p h c ^^^ c'.toUInt64 := mul_injective p e
  have near : (round p h b).toNat / 256 = (round p h c).toNat / 256 := by
    rw [← xor_byte_div (round p h b) b', last, xor_byte_div]
  have states : h ^^^ b.toUInt64 = h ^^^ c.toUInt64 :=
    eq_of_mul_div_eq p ((xor_byte_div h b).trans (xor_byte_div h c).symm) near
  have first : b = c := round_byte_injective p (h := h) (by rw [round, round, states])
  subst first
  exact ⟨rfl, round_byte_injective p e⟩

end XorMul
