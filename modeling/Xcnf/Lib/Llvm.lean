import Xcnf.Lib.Checked
import Xcnf.Lib.Region

/-!
# A part of LLVM's intermediate representation

Functions are lists of basic blocks over registers that are assigned once. An access
outside of an object, or to bytes that nothing has initialised, is a fault, and so is an
operation whose result would be poison. Calls go to the host, which has a world of its own.

`Returns` is total correctness: from a block on, the function returns within so many
blocks and without a fault. `Rest` says the same of what is left of a block, and has one
rule for each kind of instruction.

Alignment and the flag `inbounds` are not modelled: an address outside of its object is a
fault when it is accessed, and an access may be at any address.
-/

namespace Llvm

/-! ## Values and memory -/

inductive Object where
  /-- What the `n`-th argument points to. -/
  | param (n : Nat)
  /-- What `alloca` made for the register. -/
  | slot (reg : Nat)
  | global (name : String)
  /-- Memory of the host, into which it hands out pointers. -/
  | foreign (n : Nat)
  deriving DecidableEq

structure Ptr where
  object : Object
  off : Nat
  deriving DecidableEq

inductive Val where
  | int {w : Nat} (v : BitVec w)
  | ptr (p : Ptr)
  deriving DecidableEq

/-- A byte that has not been initialised is `none`. The host answers the loads of an object
that it keeps for itself, by offset and width. -/
inductive Chunk where
  | bytes (cells : List (Option UInt8))
  | fields (get : Nat → Nat → Option Val)

inductive Fault where
  | unassigned (reg : Nat)
  | type
  | poison
  | access (p : Ptr) (len : Nat)
  | uninitialised (p : Ptr) (len : Nat)
  | noBlock (label : Nat)
  | call (number : Nat)
  | unfinished
  deriving DecidableEq

abbrev Memory := Object → Option Chunk

/-- The elements from `off` on are overwritten. -/
def patch {α : Type} (xs : List α) (off : Nat) (new : List α) : List α :=
  xs.take off ++ new ++ xs.drop (off + new.length)

theorem patch_map {α β : Type} (f : α → β) (xs : List α) (off : Nat) (new : List α) :
    patch (xs.map f) off (new.map f) = (patch xs off new).map f := by
  simp [patch]

theorem patch_store {n k : Nat} (r : Region n) {off : Nat} (v : Region k) (fits : off + k ≤ n) :
    patch r.bytes off v.bytes = (r.store off v fits).bytes := by
  rw [patch, v.size]
  rfl

theorem patch_all {α : Type} {xs new : List α} (h : new.length = xs.length) :
    patch xs 0 new = new := by
  rw [patch, List.take_zero, List.nil_append, Nat.zero_add, h, List.drop_length, List.append_nil]

/-- The bytes, if all of them have been initialised. -/
def initialised : List (Option UInt8) → Option (List UInt8)
  | [] => some []
  | c :: cs => do return (← c) :: (← initialised cs)

@[simp] theorem initialised_map_some (bs : List UInt8) : initialised (bs.map some) = some bs := by
  induction bs with
  | nil => rfl
  | cons b bs ih => rw [List.map_cons, initialised, ih]; rfl

/-- The integer of the width that lies at the offset. -/
def loaded (bs : List UInt8) (off w : Nat) : BitVec w :=
  BitVec.ofNat w (ByteOrder.decodeLittle ((bs.drop off).take (w / 8)))

/-- A loaded integer is stored as the bytes that it was loaded from. -/
theorem encodeLittle_loaded {bs : List UInt8} {off k : Nat} (inside : off + k ≤ bs.length) :
    ByteOrder.encodeLittle k (loaded bs off (8 * k)).toNat = (bs.drop off).take k := by
  have length : ((bs.drop off).take k).length = k := by
    rw [List.length_take, List.length_drop]
    omega
  have small : ByteOrder.decodeLittle ((bs.drop off).take k) < 2 ^ (8 * k) := by
    have lt := ByteOrder.decodeLittle_lt ((bs.drop off).take k)
    rwa [length, show 256 = 2 ^ 8 from rfl, ← Nat.pow_mul] at lt
  have bits : 8 * k / 8 = k := by omega
  rw [loaded, bits, BitVec.toNat_ofNat, Nat.mod_eq_of_lt small]
  exact ByteOrder.encode_decode .little length

/-- Bytes that an integer was stored as are loaded as the integer. -/
theorem loaded_of_bytes {bs : List UInt8} {off k : Nat} {v : BitVec (8 * k)}
    (stored : (bs.drop off).take k = ByteOrder.encodeLittle k v.toNat) :
    loaded bs off (8 * k) = v := by
  have bits : 8 * k / 8 = k := by omega
  have small : v.toNat < 256 ^ k := by
    have lt := v.isLt
    rwa [Nat.pow_mul] at lt
  rw [loaded, bits, stored, ByteOrder.decodeLittle_encodeLittle small, BitVec.ofNat_toNat,
    BitVec.setWidth_eq]

namespace Memory

def set (m : Memory) (o : Object) (chunk : Option Chunk) : Memory :=
  fun o' => if o' = o then chunk else m o'

def read (m : Memory) (p : Ptr) (len : Nat) : Except Fault (List UInt8) :=
  match m p.object with
  | some (.bytes cells) =>
    if p.off + len ≤ cells.length then
      match initialised ((cells.drop p.off).take len) with
      | some bs => .ok bs
      | none => .error (.uninitialised p len)
    else
      .error (.access p len)
  | _ => .error (.access p len)

def write (m : Memory) (p : Ptr) (bs : List UInt8) : Except Fault Memory :=
  match m p.object with
  | some (.bytes cells) =>
    if p.off + bs.length ≤ cells.length then
      .ok (m.set p.object (some (.bytes (patch cells p.off (bs.map some)))))
    else
      .error (.access p bs.length)
  | _ => .error (.access p bs.length)

/-- Integers lie in memory with the least significant byte first. -/
def load (m : Memory) (p : Ptr) (w : Nat) : Except Fault Val :=
  match m p.object with
  | some (.fields get) =>
    match get p.off w with
    | some v => .ok v
    | none => .error (.access p (w / 8))
  | _ => do
    let bs ← m.read p (w / 8)
    return .int (BitVec.ofNat w (ByteOrder.decodeLittle bs))

/-- The object consists of these bytes, all of them initialised. -/
def Holds (m : Memory) (o : Object) (bs : List UInt8) : Prop := m o = some (.bytes (bs.map some))

variable {m : Memory} {o o' : Object} {bs : List UInt8} {off : Nat}

@[simp] theorem set_same (chunk : Option Chunk) : m.set o chunk o = chunk := if_pos rfl

theorem set_of_ne (chunk : Option Chunk) (h : o' ≠ o) : m.set o chunk o' = m o' := if_neg h

theorem holds_set_of_ne {chunk : Option Chunk} (ne : o ≠ o') :
    (m.set o' chunk).Holds o bs ↔ m.Holds o bs := by rw [Holds, set_of_ne chunk ne, Holds]

theorem holds_set : (m.set o (some (.bytes (bs.map some)))).Holds o bs := set_same _

theorem Holds.read {len : Nat} (h : m.Holds o bs) (inside : off + len ≤ bs.length) :
    m.read ⟨o, off⟩ len = .ok ((bs.drop off).take len) := by
  have inside' : off + len ≤ (bs.map some).length := by rwa [List.length_map]
  simp only [Memory.read, show m o = _ from h, if_pos inside', ← List.map_drop, ← List.map_take,
    initialised_map_some]

theorem Holds.write {new : List UInt8} (h : m.Holds o bs) (inside : off + new.length ≤ bs.length) :
    m.write ⟨o, off⟩ new = .ok (m.set o (some (.bytes ((patch bs off new).map some)))) := by
  have inside' : off + new.length ≤ (bs.map some).length := by rwa [List.length_map]
  simp only [Memory.write, show m o = _ from h, if_pos inside', patch_map]

theorem Holds.load {w : Nat} (h : m.Holds o bs) (inside : off + w / 8 ≤ bs.length) :
    m.load ⟨o, off⟩ w = .ok (.int (loaded bs off w)) := by
  have read := h.read inside
  simp only [Memory.load, show m o = _ from h, read]
  rfl

end Memory

/-! ## Programs -/

inductive Operand where
  | reg (n : Nat)
  | int (w : Nat) (v : Int)
  | global (name : String)

inductive BinOp where
  | add
  | and
  | lshr

inductive Cond where
  | eq
  | slt
  | ult

inductive Instr where
  | alloca (dst size : Nat)
  | lifetimeStart (size : Nat) (p : Operand)
  | lifetimeEnd (size : Nat) (p : Operand)
  | gep (dst : Nat) (base : Operand) (off : Nat)
  | load (dst w : Nat) (src : Operand)
  | store (w : Nat) (v dst : Operand)
  | memset (dst : Operand) (byte : UInt8) (len : Nat)
  | memcpy (dst src : Operand) (len : Nat)
  | bin (dst : Nat) (op : BinOp) (w : Nat) (a b : Operand)
  | icmp (dst : Nat) (cond : Cond) (w : Nat) (a b : Operand)
  /-- `icmp ugt ptr`. -/
  | icmpUgtPtr (dst : Nat) (a b : Operand)
  | zext (dst w : Nat) (a : Operand)
  /-- `trunc nuw nsw` to `w` from `w'` bits. -/
  | trunc (dst w w' : Nat) (a : Operand)
  | inttoptr (dst : Nat) (a : Operand)
  /-- A call to the host by number. -/
  | call (dst number : Nat) (args : List Operand)

inductive Terminator where
  | br (label : Nat)
  | condBr (cond : Operand) (yes no : Nat)
  | switch (w : Nat) (v : Operand) (default : Nat) (cases : List (Int × Nat))
  | ret (v : Operand)

structure Block where
  label : Nat
  body : List Instr
  exit : Terminator

abbrev Code := List Block

def Code.block? (fn : Code) (label : Nat) : Option Block := fn.find? (·.label = label)

/-! ## Execution -/

structure State (ω : Type) where
  regs : Nat → Option Val
  mem : Memory
  world : ω

/-- What a call does, from its number and its arguments. It may read the memory. -/
abbrev Host (ω : Type) := Nat → List Val → Memory → ω → Except Fault (Val × ω)

def BinOp.eval {w : Nat} : BinOp → BitVec w → BitVec w → Except Fault (BitVec w)
  | .add, a, b => .ok (a + b)
  | .and, a, b => .ok (a &&& b)
  | .lshr, a, b => if b.toNat < w then .ok (a >>> b.toNat) else .error .poison

def Cond.eval {w : Nat} : Cond → BitVec w → BitVec w → Bool
  | .eq, a, b => a = b
  | .slt, a, b => a.slt b
  | .ult, a, b => a.ult b

def Val.asInt (w : Nat) : Val → Except Fault (BitVec w)
  | .int (w := w') v => if h : w' = w then .ok (v.cast h) else .error .type
  | .ptr _ => .error .type

def Val.asPtr : Val → Except Fault Ptr
  | .int _ => .error .type
  | .ptr p => .ok p

@[simp] theorem Val.asInt_int {w : Nat} (v : BitVec w) : (Val.int v).asInt w = .ok v := by
  simp [Val.asInt]

namespace State

variable {ω : Type}

def set (s : State ω) (dst : Nat) (v : Val) : State ω :=
  { s with regs := fun r => if r = dst then some v else s.regs r }

def val (s : State ω) : Operand → Except Fault Val
  | .reg n => match s.regs n with
    | some v => .ok v
    | none => .error (.unassigned n)
  | .int w v => .ok (.int (BitVec.ofInt w v))
  | .global name => .ok (.ptr ⟨.global name, 0⟩)

def int (s : State ω) (w : Nat) (a : Operand) : Except Fault (BitVec w) := do (← s.val a).asInt w

def ptr (s : State ω) (a : Operand) : Except Fault Ptr := do (← s.val a).asPtr

/-- The arguments of a call. -/
def vals (s : State ω) : List Operand → Except Fault (List Val)
  | [] => .ok []
  | a :: as => do return (← s.val a) :: (← s.vals as)

theorem vals_cons {s : State ω} {a : Operand} {as : List Operand} {v : Val} {vs : List Val}
    (ha : s.val a = .ok v) (has : s.vals as = .ok vs) : s.vals (a :: as) = .ok (v :: vs) := by
  rw [vals, ha, has]
  rfl

@[simp] theorem set_mem (s : State ω) (dst : Nat) (v : Val) : (s.set dst v).mem = s.mem := rfl

@[simp] theorem set_world (s : State ω) (dst : Nat) (v : Val) :
    (s.set dst v).world = s.world := rfl

theorem int_of_val {s : State ω} {w : Nat} {a : Operand} {v : BitVec w}
    (h : s.val a = .ok (.int v)) : s.int w a = .ok v := by
  rw [int, h]
  exact Val.asInt_int v

theorem ptr_of_val {s : State ω} {a : Operand} {p : Ptr} (h : s.val a = .ok (.ptr p)) :
    s.ptr a = .ok p := by
  rw [ptr, h]
  rfl

/-- The object now consists of these bytes. -/
def write (s : State ω) (o : Object) (bs : List UInt8) : State ω :=
  { s with mem := s.mem.set o (some (.bytes (bs.map some))) }

@[simp] theorem write_mem (s : State ω) (o : Object) (bs : List UInt8) :
    (s.write o bs).mem = s.mem.set o (some (.bytes (bs.map some))) := rfl

@[simp] theorem write_world (s : State ω) (o : Object) (bs : List UInt8) :
    (s.write o bs).world = s.world := rfl

theorem holds_write (s : State ω) (o : Object) (bs : List UInt8) :
    (s.write o bs).mem.Holds o bs := Memory.holds_set

end State

variable {ω : Type}

def exec (host : Host ω) (s : State ω) : Instr → Except Fault (State ω)
  | .alloca dst size =>
    let mem := s.mem.set (.slot dst) (some (.bytes (List.replicate size none)))
    .ok ({ s with mem }.set dst (.ptr ⟨.slot dst, 0⟩))
  | .lifetimeStart size p => do
    let p ← s.ptr p
    return { s with mem := s.mem.set p.object (some (.bytes (List.replicate size none))) }
  | .lifetimeEnd _ p => do
    let p ← s.ptr p
    return { s with mem := s.mem.set p.object none }
  | .gep dst base off => do
    let p ← s.ptr base
    return s.set dst (.ptr { p with off := p.off + off })
  | .load dst w src => do
    let v ← s.mem.load (← s.ptr src) w
    return s.set dst v
  | .store w v dst => do
    let v ← s.int w v
    let mem ← s.mem.write (← s.ptr dst) (ByteOrder.encodeLittle (w / 8) v.toNat)
    return { s with mem }
  | .memset dst byte len => do
    let mem ← s.mem.write (← s.ptr dst) (List.replicate len byte)
    return { s with mem }
  | .memcpy dst src len => do
    let bs ← s.mem.read (← s.ptr src) len
    let mem ← s.mem.write (← s.ptr dst) bs
    return { s with mem }
  | .bin dst op w a b => do
    let v ← op.eval (← s.int w a) (← s.int w b)
    return s.set dst (.int v)
  | .icmp dst cond w a b => do
    let v := cond.eval (← s.int w a) (← s.int w b)
    return s.set dst (.int (BitVec.ofBool v))
  | .icmpUgtPtr dst a b => do
    let p ← s.ptr a
    let q ← s.ptr b
    -- the order of two objects in memory is nobody's business
    if p.object = q.object then
      return s.set dst (.int (BitVec.ofBool (decide (q.off < p.off))))
    else
      throw .type
  | .zext dst w a => do
    match ← s.val a with
    | .int v => return s.set dst (.int (v.setWidth w))
    -- a pointer from a field of the host stays one under the casts
    | .ptr p => return s.set dst (.ptr p)
  | .trunc dst w w' a => do
    let v ← s.int w' a
    let t := v.setWidth w
    if t.toNat = v.toNat ∧ t.toInt = v.toInt then
      return s.set dst (.int t)
    else
      throw .poison
  | .inttoptr dst a => do
    let p ← s.ptr a
    return s.set dst (.ptr p)
  | .call dst number args => do
    let (v, world) ← host number (← s.vals args) s.mem s.world
    return { s with world }.set dst v

inductive Next where
  | goto (label : Nat)
  | done (v : Val)

def Terminator.next (s : State ω) : Terminator → Except Fault Next
  | .br label => .ok (.goto label)
  | .condBr cond yes no => do
    let c ← s.int 1 cond
    return .goto (if c = 1 then yes else no)
  | .switch w v default cases => do
    let v ← s.int w v
    return .goto ((cases.find? fun c => v = BitVec.ofInt w c.1).elim default (·.2))
  | .ret v => do return .done (← s.val v)

def execAll (host : Host ω) (s : State ω) : List Instr → Except Fault (State ω)
  | [] => .ok s
  | i :: is => do execAll host (← exec host s i) is

/-- From a block on, through at most `n` blocks. -/
def run (host : Host ω) (fn : Code) : Nat → Nat → State ω → Except Fault (Val × State ω)
  | 0, _, _ => .error .unfinished
  | n + 1, label, s =>
    match fn.block? label with
    | none => .error (.noBlock label)
    | some b => do
      let s ← execAll host s b.body
      match ← b.exit.next s with
      | .goto label => run host fn n label s
      | .done v => return (v, s)

/-- More blocks than are needed change nothing. -/
theorem run_mono {host : Host ω} {fn : Code} {n m label : Nat} {s : State ω}
    {r : Val × State ω} (h : run host fn n label s = .ok r) (le : n ≤ m) :
    run host fn m label s = .ok r := by
  induction n generalizing m label s with
  | zero => contradiction
  | succ n ih =>
      obtain ⟨m, rfl⟩ : ∃ k, m = k + 1 := ⟨m - 1, by omega⟩
      rw [run] at h ⊢
      cases found : fn.block? label with
      | none =>
          rw [found] at h
          contradiction
      | some b =>
          rw [found] at h
          obtain ⟨s', body, h⟩ := Checked.bind_eq_ok.mp h
          obtain ⟨next, exit, h⟩ := Checked.bind_eq_ok.mp h
          simp only [body, exit, Checked.ok_bind]
          cases next with
          | done v => exact h
          | goto label' => exact ih h (by omega)

/-! ## Total correctness -/

/-- From the block on, the function returns within `n` blocks, with a value and in a state
as described. -/
def Returns (host : Host ω) (fn : Code) (n label : Nat) (s : State ω)
    (Q : Val → State ω → Prop) : Prop :=
  ∃ v s', run host fn n label s = .ok (v, s') ∧ Q v s'

/-- The same, from within a block. -/
def Rest (host : Host ω) (fn : Code) (n : Nat) (is : List Instr) (exit : Terminator)
    (s : State ω) (Q : Val → State ω → Prop) : Prop :=
  ∃ s' next, execAll host s is = .ok s' ∧ exit.next s' = .ok next ∧
    match next with
    | .goto label => Returns host fn n label s' Q
    | .done v => Q v s'

variable {host : Host ω} {fn : Code} {n label : Nat} {s : State ω} {Q : Val → State ω → Prop}

namespace Returns

theorem mono (h : Returns host fn n label s Q) {m : Nat} (le : n ≤ m) :
    Returns host fn m label s Q := by
  obtain ⟨v, s', run, post⟩ := h
  exact ⟨v, s', run_mono run le, post⟩

theorem block {b : Block} (found : fn.block? label = some b)
    (rest : Rest host fn n b.body b.exit s Q) : Returns host fn (n + 1) label s Q := by
  obtain ⟨s', next, body, exit, post⟩ := rest
  rw [Returns]
  simp only [run, found, body, exit, Checked.ok_bind]
  cases next with
  | goto label' => exact post
  | done v => exact ⟨v, s', rfl, post⟩

end Returns

namespace Rest

variable {is : List Instr} {exit : Terminator}

theorem step {i : Instr} {s' : State ω} (h : exec host s i = .ok s')
    (rest : Rest host fn n is exit s' Q) : Rest host fn n (i :: is) exit s Q := by
  obtain ⟨s'', next, body, post⟩ := rest
  refine ⟨s'', next, ?_, post⟩
  rw [execAll, h]
  exact body

variable {o : Object} {off dst w : Nat} {a b : Operand} {bs : List UInt8}

theorem gep {k : Nat} (hp : s.val a = .ok (.ptr ⟨o, off⟩))
    (rest : Rest host fn n is exit (s.set dst (.ptr ⟨o, off + k⟩)) Q) :
    Rest host fn n (.gep dst a k :: is) exit s Q := by
  apply step _ rest
  rw [exec, State.ptr_of_val hp]
  rfl

theorem load (hp : s.val a = .ok (.ptr ⟨o, off⟩)) (h : s.mem.Holds o bs)
    (inside : off + w / 8 ≤ bs.length)
    (rest : Rest host fn n is exit (s.set dst (.int (loaded bs off w))) Q) :
    Rest host fn n (.load dst w a :: is) exit s Q := by
  apply step _ rest
  rw [exec, State.ptr_of_val hp, Checked.ok_bind, h.load inside]
  rfl

theorem loadField {get : Nat → Nat → Option Val} {v : Val} (hp : s.val a = .ok (.ptr ⟨o, off⟩))
    (h : s.mem o = some (.fields get)) (field : get off w = some v)
    (rest : Rest host fn n is exit (s.set dst v) Q) :
    Rest host fn n (.load dst w a :: is) exit s Q := by
  apply step _ rest
  rw [exec, State.ptr_of_val hp, Checked.ok_bind, Memory.load]
  simp only [h, field]
  rfl

theorem store {v : BitVec w} (hv : s.val a = .ok (.int v)) (hp : s.val b = .ok (.ptr ⟨o, off⟩))
    (h : s.mem.Holds o bs) (inside : off + w / 8 ≤ bs.length)
    (rest : Rest host fn n is exit
      (s.write o (patch bs off (ByteOrder.encodeLittle (w / 8) v.toNat))) Q) :
    Rest host fn n (.store w a b :: is) exit s Q := by
  apply step _ rest
  have inside' : off + (ByteOrder.encodeLittle (w / 8) v.toNat).length ≤ bs.length := by
    rwa [ByteOrder.encodeLittle_length]
  rw [exec, State.int_of_val hv, State.ptr_of_val hp, Checked.ok_bind, Checked.ok_bind,
    h.write inside']
  rfl

/-- A store into a region, where `y` is how the value lies in memory. -/
theorem storeRegion {size k : Nat} {r : Region size} {y : Region k} {v : BitVec w}
    (hv : s.val a = .ok (.int v)) (hp : s.val b = .ok (.ptr ⟨o, off⟩))
    (h : s.mem.Holds o r.bytes) (fits : off + k ≤ size) (bits : w = 8 * k)
    (bytes : ByteOrder.encodeLittle k v.toNat = y.bytes)
    (rest : Rest host fn n is exit (s.write o (r.store off y fits).bytes) Q) :
    Rest host fn n (.store w a b :: is) exit s Q := by
  have count : w / 8 = k := by omega
  apply store hv hp h
  · rwa [count, r.size]
  · rwa [count, bytes, patch_store r y fits]

/-- All of an object is set, whatever it held before. -/
theorem memset {cells : List (Option UInt8)} {byte : UInt8} {len : Nat}
    (hp : s.val a = .ok (.ptr ⟨o, 0⟩)) (h : s.mem o = some (.bytes cells))
    (all : cells.length = len)
    (rest : Rest host fn n is exit (s.write o (List.replicate len byte)) Q) :
    Rest host fn n (.memset a byte len :: is) exit s Q := by
  apply step _ rest
  have fits : 0 + (List.replicate len byte).length ≤ cells.length := by simp [all]
  have whole : patch cells 0 ((List.replicate len byte).map some) =
      (List.replicate len byte).map some := patch_all (by simp [all])
  rw [exec, State.ptr_of_val hp, Checked.ok_bind, Memory.write]
  simp only [h, if_pos fits, whole]
  rfl

/-- All of an object is copied into another one of the same size. -/
theorem memcpy {cells : List (Option UInt8)} {o' : Object} {len : Nat}
    (hp : s.val a = .ok (.ptr ⟨o, 0⟩)) (h : s.mem o = some (.bytes cells))
    (hp' : s.val b = .ok (.ptr ⟨o', 0⟩)) (h' : s.mem.Holds o' bs) (all : cells.length = len)
    (all' : bs.length = len) (rest : Rest host fn n is exit (s.write o bs) Q) :
    Rest host fn n (.memcpy a b len :: is) exit s Q := by
  apply step _ rest
  subst all'
  have fits : 0 + bs.length ≤ cells.length := by omega
  have whole : patch cells 0 (bs.map some) = bs.map some := patch_all (by simp [all])
  rw [exec, State.ptr_of_val hp, State.ptr_of_val hp', Checked.ok_bind,
    h'.read (by omega), List.drop_zero, List.take_length, Checked.ok_bind, Checked.ok_bind,
    Memory.write]
  simp only [h, if_pos fits, whole]
  rfl

theorem alloca {size : Nat}
    (rest : Rest host fn n is exit (State.set
      { s with mem := s.mem.set (.slot dst) (some (.bytes (List.replicate size none))) }
      dst (.ptr ⟨.slot dst, 0⟩)) Q) :
    Rest host fn n (.alloca dst size :: is) exit s Q := step rfl rest

theorem lifetimeStart {size : Nat} (hp : s.val a = .ok (.ptr ⟨o, 0⟩))
    (rest : Rest host fn n is exit
      { s with mem := s.mem.set o (some (.bytes (List.replicate size none))) } Q) :
    Rest host fn n (.lifetimeStart size a :: is) exit s Q := by
  apply step _ rest
  rw [exec, State.ptr_of_val hp]
  rfl

theorem lifetimeEnd {size : Nat} (hp : s.val a = .ok (.ptr ⟨o, 0⟩))
    (rest : Rest host fn n is exit { s with mem := s.mem.set o none } Q) :
    Rest host fn n (.lifetimeEnd size a :: is) exit s Q := by
  apply step _ rest
  rw [exec, State.ptr_of_val hp]
  rfl

theorem bin {op : BinOp} {x y z : BitVec w} (ha : s.val a = .ok (.int x))
    (hb : s.val b = .ok (.int y)) (h : op.eval x y = .ok z)
    (rest : Rest host fn n is exit (s.set dst (.int z)) Q) :
    Rest host fn n (.bin dst op w a b :: is) exit s Q := by
  apply step _ rest
  rw [exec, State.int_of_val ha, State.int_of_val hb, Checked.ok_bind, Checked.ok_bind, h]
  rfl

theorem icmp {cond : Cond} {x y : BitVec w} (ha : s.val a = .ok (.int x))
    (hb : s.val b = .ok (.int y))
    (rest : Rest host fn n is exit (s.set dst (.int (BitVec.ofBool (cond.eval x y)))) Q) :
    Rest host fn n (.icmp dst cond w a b :: is) exit s Q := by
  apply step _ rest
  rw [exec, State.int_of_val ha, State.int_of_val hb]
  rfl

theorem icmpUgtPtr {i j : Nat} (ha : s.val a = .ok (.ptr ⟨o, i⟩))
    (hb : s.val b = .ok (.ptr ⟨o, j⟩))
    (rest : Rest host fn n is exit (s.set dst (.int (BitVec.ofBool (decide (j < i))))) Q) :
    Rest host fn n (.icmpUgtPtr dst a b :: is) exit s Q := by
  apply step _ rest
  rw [exec, State.ptr_of_val ha, State.ptr_of_val hb, Checked.ok_bind, Checked.ok_bind]
  exact if_pos rfl

theorem zextPtr {p : Ptr} (ha : s.val a = .ok (.ptr p))
    (rest : Rest host fn n is exit (s.set dst (.ptr p)) Q) :
    Rest host fn n (.zext dst w a :: is) exit s Q := by
  apply step _ rest
  rw [exec, ha]
  rfl

theorem trunc {w' : Nat} {x : BitVec w'} (ha : s.val a = .ok (.int x))
    (nowrap : (x.setWidth w).toNat = x.toNat ∧ (x.setWidth w).toInt = x.toInt)
    (rest : Rest host fn n is exit (s.set dst (.int (x.setWidth w))) Q) :
    Rest host fn n (.trunc dst w w' a :: is) exit s Q := by
  apply step _ rest
  rw [exec, State.int_of_val ha, Checked.ok_bind]
  exact if_pos nowrap

theorem inttoptr {p : Ptr} (ha : s.val a = .ok (.ptr p))
    (rest : Rest host fn n is exit (s.set dst (.ptr p)) Q) :
    Rest host fn n (.inttoptr dst a :: is) exit s Q := by
  apply step _ rest
  rw [exec, State.ptr_of_val ha]
  rfl

theorem call {number : Nat} {args : List Operand} {vs : List Val} {v : Val} {world : ω}
    (hargs : s.vals args = .ok vs) (h : host number vs s.mem s.world = .ok (v, world))
    (rest : Rest host fn n is exit (State.set { s with world } dst v) Q) :
    Rest host fn n (.call dst number args :: is) exit s Q := by
  apply step _ rest
  rw [exec, hargs, Checked.ok_bind, h]
  rfl

theorem br (rest : Returns host fn n label s Q) : Rest host fn n [] (.br label) s Q :=
  ⟨s, .goto label, rfl, rfl, rest⟩

theorem condBr {c : Bool} {yes no : Nat} (h : s.val a = .ok (.int (BitVec.ofBool c)))
    (rest : Returns host fn n (if c then yes else no) s Q) :
    Rest host fn n [] (.condBr a yes no) s Q := by
  refine ⟨s, .goto (if c then yes else no), rfl, ?_, rest⟩
  rw [Terminator.next, State.int_of_val h]
  cases c <;> rfl

theorem switch {v : BitVec w} {default : Nat} {cases : List (Int × Nat)}
    (h : s.val a = .ok (.int v))
    (rest : Returns host fn n
      ((cases.find? fun c => v = BitVec.ofInt w c.1).elim default (·.2)) s Q) :
    Rest host fn n [] (.switch w a default cases) s Q := by
  refine ⟨s, .goto _, rfl, ?_, rest⟩
  rw [Terminator.next, State.int_of_val h]
  rfl

theorem ret {v : Val} (h : s.val a = .ok v) (post : Q v s) : Rest host fn n [] (.ret a) s Q := by
  refine ⟨s, .done v, rfl, ?_, post⟩
  rw [Terminator.next, h]
  rfl

end Rest

end Llvm
