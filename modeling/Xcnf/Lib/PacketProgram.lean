import Xcnf.Lib.Buffer

/-!
# Programs that run on a packet

A program reads and writes memory through pointers, which point into the packet or into
a slot that has been reserved in a ring buffer. Nothing stops it from reading outside the
packet or from changing it: what it has read is in the journal, and so are the records
that it has reserved, submitted or output. `Transparent` says that a program has behaved.

A checked computation says what a program does that only reads (`Follows`): wherever the
checked one does not fault, the program has read inside the packet only, with the same
result.
-/

namespace PacketProgram

/-- What a pointer points into. -/
inductive Object where
  | packet
  | slot (i : Nat)
  deriving DecidableEq

structure Ptr where
  object : Object
  off : Nat
  deriving DecidableEq

def Ptr.add (p : Ptr) (n : Nat) : Ptr := { p with off := p.off + n }

/-- `data`, the start of the packet. -/
def packetStart : Ptr := ⟨.packet, 0⟩

@[simp] theorem Ptr.add_mk (object : Object) (off n : Nat) :
    Ptr.add ⟨object, off⟩ n = ⟨object, off + n⟩ := rfl

@[simp] theorem packetStart_add (n : Nat) : packetStart.add n = ⟨.packet, n⟩ := by
  rw [packetStart, Ptr.add_mk, Nat.zero_add]

inductive Op where
  /-- Bytes of the packet. -/
  | read (off len : Nat)
  | reserve (slot : Nat)
  | submit (slot : Nat) (record : List UInt8)
  | output (record : List UInt8)
  deriving DecidableEq

/-- The packet up to `data_end`, the slots reserved so far, and what has been done, in
order. -/
structure World where
  packet : List UInt8
  slots : List (List UInt8)
  journal : List Op
  deriving DecidableEq

namespace World

def start (packet : List UInt8) : World := ⟨packet, [], []⟩

def log (w : World) (op : Op) : World := { w with journal := w.journal ++ [op] }

/-- The bytes from `off` on are overwritten. -/
def patch (bytes : List UInt8) (off : Nat) (new : List UInt8) : List UInt8 :=
  bytes.take off ++ new ++ bytes.drop (off + new.length)

def patchPacket (w : World) (off : Nat) (new : List UInt8) : World :=
  { w with packet := patch w.packet off new }

def patchSlot (w : World) (i off : Nat) (new : List UInt8) : World :=
  { w with slots := w.slots.modify i fun bytes => patch bytes off new }

def addSlot (w : World) (bytes : List UInt8) : World :=
  { w with slots := w.slots ++ [bytes], journal := w.journal ++ [.reserve w.slots.length] }

end World

abbrev Program (α : Type) := StateM World α

/-! ## What a program can do -/

/-- The length of the packet is where `data_end` points to. -/
def dataEnd : Program Nat := fun w => (w.packet.length, w)

/-- Outside of the object there are zeros. -/
def load (p : Ptr) (n : Nat) : Program (Region n) := fun w =>
  match p.object with
  | .packet => (Buffer.peek w.packet p.off n, w.log (.read p.off n))
  | .slot i => (Buffer.peek (w.slots.getD i []) p.off n, w)

def load8 (p : Ptr) : Program UInt8 := fun w =>
  match p.object with
  | .packet => (Buffer.byteAt w.packet p.off, w.log (.read p.off 1))
  | .slot i => (Buffer.byteAt (w.slots.getD i []) p.off, w)

def store {n : Nat} (p : Ptr) (v : Region n) : Program Unit := fun w =>
  match p.object with
  | .packet => ((), w.patchPacket p.off v.bytes)
  | .slot i => ((), w.patchSlot i p.off v.bytes)

/-- A slot with the given contents, if there is room for one. -/
def reserve (memory : Option (List UInt8)) : Program (Option Ptr) := fun w =>
  match memory with
  | none => (none, w)
  | some bytes =>
    (some ⟨.slot w.slots.length, 0⟩, w.addSlot bytes)

def submit (p : Ptr) : Program Unit := fun w =>
  match p.object with
  | .packet => ((), w)
  | .slot i => ((), w.log (.submit i (w.slots.getD i [])))

/-- A copy of the record is handed over, unless there is no room, with a negative result. -/
def output (record : List UInt8) (result : Int) : Program Int := fun w =>
  if result < 0 then (result, w) else (result, w.log (.output record))

section

variable {α β : Type} (w : World)

theorem bind_apply (m : Program α) (f : α → Program β) : (m >>= f) w = f (m w).1 (m w).2 := rfl

/-- What comes next is run in the state that the operation leaves. -/
theorem run_dataEnd (f : Nat → Program β) : (dataEnd >>= f) w = f w.packet.length w := rfl

theorem run_load (off n : Nat) (f : Region n → Program β) :
    (load ⟨.packet, off⟩ n >>= f) w = f (Buffer.peek w.packet off n) (w.log (.read off n)) := rfl

theorem run_reserve_none (f : Option Ptr → Program β) : (reserve none >>= f) w = f none w := rfl

theorem run_reserve_some (bytes : List UInt8) (f : Option Ptr → Program β) :
    (reserve (some bytes) >>= f) w =
      f (some ⟨.slot w.slots.length, 0⟩) (w.addSlot bytes) := rfl

theorem run_submit (i off : Nat) (f : Unit → Program β) :
    (submit ⟨.slot i, off⟩ >>= f) w = f () (w.log (.submit i (w.slots.getD i []))) := rfl

end

/-! ## Transparency -/

/-- The record that is handed over, if one is. -/
def Op.record? : Op → Option (List UInt8)
  | .submit _ record | .output record => some record
  | .read _ _ | .reserve _ => none

/-- The records that have been handed over. -/
def emitted (ops : List Op) : List (List UInt8) := ops.filterMap Op.record?

theorem emitted_append (ops ops' : List Op) :
    emitted (ops ++ ops') = emitted ops ++ emitted ops' := List.filterMap_append

theorem emitted_outputs (records : List (List UInt8)) :
    emitted (records.map .output) = records := by
  induction records with
  | nil => rfl
  | cons record records ih => exact congrArg (record :: ·) ih

def Op.submits (i : Nat) : Op → Bool
  | .submit j _ => j = i
  | .read _ _ | .reserve _ | .output _ => false

/-- Run on the packet, the program passes it on as it is, reads nothing behind it, hands at
most one record over, and submits each slot that it reserves once. -/
structure Transparent (pass : Int) (packet : List UInt8) (m : Program Int) : Prop where
  passes : (m (.start packet)).1 = pass
  unchanged : (m (.start packet)).2.packet = packet
  inside : ∀ off len, .read off len ∈ (m (.start packet)).2.journal →
    off + len ≤ packet.length
  emits : (emitted (m (.start packet)).2.journal).length ≤ 1
  submitted : ∀ i, .reserve i ∈ (m (.start packet)).2.journal →
    (m (.start packet)).2.journal.countP (Op.submits i) = 1

/-! ## Programs that only read -/

/-- Nothing but reads inside the packet. -/
def ReadsInside (packet : List UInt8) (ops : List Op) : Prop :=
  ∀ op ∈ ops, ∃ off len, op = .read off len ∧ off + len ≤ packet.length

namespace ReadsInside

variable {packet : List UInt8} {ops ops' : List Op}

theorem append (first : ReadsInside packet ops) (second : ReadsInside packet ops') :
    ReadsInside packet (ops ++ ops') := by
  intro op hop
  rcases List.mem_append.mp hop with hop | hop
  · exact first op hop
  · exact second op hop

theorem bound (h : ReadsInside packet ops) {off len : Nat} (hop : .read off len ∈ ops) :
    off + len ≤ packet.length := by
  obtain ⟨off', len', e, bound⟩ := h _ hop
  obtain ⟨rfl, rfl⟩ := Op.read.inj e
  exact bound

theorem not_reserve (h : ReadsInside packet ops) (i : Nat) : .reserve i ∉ ops := by
  intro hop
  obtain ⟨off, len, e, _⟩ := h _ hop
  contradiction

theorem emitted_eq (h : ReadsInside packet ops) : emitted ops = [] :=
  List.filterMap_eq_nil_iff.mpr fun op hop => by
    obtain ⟨off, len, rfl, _⟩ := h op hop
    rfl

theorem single {off len : Nat} (h : off + len ≤ packet.length) :
    ReadsInside packet [.read off len] :=
  fun _ hop => ⟨off, len, List.mem_singleton.mp hop, h⟩

/-- A record that is reserved and submitted between reads. -/
theorem emitted_submit (before : ReadsInside packet ops) (after : ReadsInside packet ops') (i : Nat)
    (record : List UInt8) :
    emitted (ops ++ .reserve i :: (ops' ++ [.submit i record])) = [record] := by
  change emitted (ops ++ ([.reserve i] ++ (ops' ++ [.submit i record]))) = [record]
  rw [emitted_append, emitted_append, emitted_append, before.emitted_eq, after.emitted_eq]
  rfl

theorem countP_submits (h : ReadsInside packet ops) (i : Nat) : ops.countP (Op.submits i) = 0 :=
  List.countP_eq_zero.mpr fun op hop => by
    obtain ⟨off, len, rfl, _⟩ := h op hop
    exact Bool.false_ne_true

end ReadsInside

/-- From `w` to `w'` there have been reads inside the packet, and nothing else. -/
def OnlyReads (w w' : World) : Prop :=
  ∃ reads, w' = { w with journal := w.journal ++ reads } ∧ ReadsInside w.packet reads

namespace OnlyReads

variable {w w' w'' : World}

theorem refl (w : World) : OnlyReads w w :=
  ⟨[], by rw [List.append_nil], fun _ h => by contradiction⟩

theorem packet (h : OnlyReads w w') : w'.packet = w.packet := by
  obtain ⟨reads, rfl, _⟩ := h
  rfl

theorem trans (first : OnlyReads w w') (second : OnlyReads w' w'') : OnlyReads w w'' := by
  obtain ⟨reads, rfl, inside⟩ := first
  obtain ⟨more, rfl, inside'⟩ := second
  exact ⟨reads ++ more, by rw [List.append_assoc], inside.append inside'⟩

theorem log {off len : Nat} (h : off + len ≤ w.packet.length) :
    OnlyReads w (w.log (.read off len)) :=
  ⟨[.read off len], rfl, .single h⟩

end OnlyReads

namespace Transparent

variable {pass : Int} {packet : List UInt8} {m : Program Int}

/-- A program that reads, and then outputs a record or none, is transparent. -/
theorem of_output {w : World} {records : List (List UInt8)} (reads : OnlyReads (.start packet) w)
    (run : m (.start packet) = (pass, { w with journal := w.journal ++ records.map .output }))
    (few : records.length ≤ 1) : Transparent pass packet m := by
  obtain ⟨ops, rfl, inside⟩ := reads
  refine ⟨?_, ?_, ?_, ?_, ?_⟩ <;> rw [run]
  · rfl
  · intro off len hop
    rcases List.mem_append.mp hop with hop | hop
    · exact inside.bound hop
    · obtain ⟨record, _, e⟩ := List.mem_map.mp hop
      contradiction
  · change (emitted (ops ++ records.map .output)).length ≤ 1
    rwa [emitted_append, inside.emitted_eq, emitted_outputs]
  · intro i hop
    rcases List.mem_append.mp hop with hop | hop
    · exact absurd hop (inside.not_reserve i)
    · obtain ⟨record, _, e⟩ := List.mem_map.mp hop
      contradiction

theorem of_reads {w : World} (reads : OnlyReads (.start packet) w)
    (run : m (.start packet) = (pass, w)) : Transparent pass packet m := by
  have run' : m (.start packet) =
      (pass, { w with journal := w.journal ++ ([] : List (List UInt8)).map .output }) := by
    rw [run, List.map_nil, List.append_nil]
  exact of_output reads run' (Nat.zero_le 1)

/-- A program that reserves a record, and submits it after some reads, is transparent. -/
theorem of_submit {slots : List (List UInt8)} {before after : List Op} {i : Nat}
    {record : List UInt8} (inside : ReadsInside packet before) (inside' : ReadsInside packet after)
    (run : m (.start packet) =
      (pass, ⟨packet, slots, before ++ .reserve i :: (after ++ [.submit i record])⟩)) :
    Transparent pass packet m := by
  refine ⟨?_, ?_, ?_, ?_, ?_⟩ <;> rw [run]
  · intro off len hop
    rcases List.mem_append.mp hop with hop | hop
    · exact inside.bound hop
    · rcases List.mem_append.mp (List.mem_of_ne_of_mem (by simp) hop) with hop | hop
      · exact inside'.bound hop
      · have := List.mem_singleton.mp hop
        contradiction
  · rw [inside.emitted_submit inside']
    exact Nat.le_refl 1
  · intro j hop
    have same : j = i := by
      rcases List.mem_append.mp hop with hop | hop
      · exact absurd hop (inside.not_reserve j)
      · rcases List.mem_cons.mp hop with e | hop
        · exact Op.reserve.inj e
        · rcases List.mem_append.mp hop with hop | hop
          · exact absurd hop (inside'.not_reserve j)
          · have := List.mem_singleton.mp hop
            contradiction
    rw [same, List.countP_append, List.countP_cons, List.countP_append,
      inside.countP_submits, inside'.countP_submits]
    simp [Op.submits]

end Transparent

/-- Wherever the checked computation succeeds on the packet, so does the program, and only
reads. -/
def Follows {α : Type} (packet : List UInt8) (m : Program α) (x : Access α) : Prop :=
  ∀ a, x = .ok a → ∀ w, w.packet = packet → ∃ w', m w = (a, w') ∧ OnlyReads w w'

namespace Follows

variable {α β : Type} {packet : List UInt8} {m m' : Program α} {x x' : Access α}

theorem pure (a : α) : Follows packet (Pure.pure a) (Pure.pure a) := by
  intro b hb w _
  obtain rfl := Except.ok.inj hb
  exact ⟨w, rfl, .refl w⟩

theorem bind {f : α → Program β} {g : α → Access β} (first : Follows packet m x)
    (rest : ∀ a, Follows packet (f a) (g a)) : Follows packet (m >>= f) (x >>= g) := by
  intro b hb w hw
  obtain ⟨a, ha, hb⟩ := Checked.bind_eq_ok.mp hb
  obtain ⟨w', hm, reads⟩ := first a ha w hw
  obtain ⟨w'', hf, more⟩ := rest a b hb w' (reads.packet.trans hw)
  refine ⟨w'', ?_, reads.trans more⟩
  rw [bind_apply, hm]
  exact hf

theorem ite {c : Prop} [Decidable c] (yes : Follows packet m x) (no : Follows packet m' x') :
    Follows packet (if c then m else m') (if c then x else x') := by
  by_cases h : c
  · rwa [if_pos h, if_pos h]
  · rwa [if_neg h, if_neg h]

theorem load (off n : Nat) :
    Follows packet (load ⟨.packet, off⟩ n) (Buffer.load packet off n) := by
  rintro a ha w rfl
  rw [Buffer.load] at ha
  split at ha
  next inside =>
    obtain rfl := Except.ok.inj ha
    exact ⟨w.log (.read off n), rfl, .log inside⟩
  next => contradiction

theorem load8 (i : Nat) :
    Follows packet (load8 ⟨.packet, i⟩) (Buffer.load8 packet i) := by
  rintro a ha w rfl
  rw [Buffer.load8] at ha
  split at ha
  next inside =>
    obtain rfl := Except.ok.inj ha
    exact ⟨w.log (.read i 1), rfl, .log inside⟩
  next => contradiction

/-- The end of the packet is known to the checked computation. -/
theorem dataEnd {f : Nat → Program α} (h : Follows packet (f packet.length) x) :
    Follows packet (dataEnd >>= f) x := by
  rintro a ha w rfl
  exact h a ha w rfl

end Follows

/-! ## Programs that fill in a record -/

/-- With the record `r` in the slot, the program returns `a` and leaves `r'` there. It reads
inside the packet and does nothing else. -/
def Fills {α : Type} {n : Nat} (packet : List UInt8) (i : Nat) (r : Region n) (m : Program α)
    (a : α) (r' : Region n) : Prop :=
  ∀ w : World, w.packet = packet → w.slots[i]? = some r.bytes →
    ∃ w', m w = (a, w') ∧ w'.slots[i]? = some r'.bytes ∧
      OnlyReads w { w' with slots := w.slots }

namespace Fills

variable {α β : Type} {n : Nat} {packet : List UInt8} {i : Nat} {r r' r'' : Region n}

theorem bind {m : Program α} {f : α → Program β} {a : α} {b : β} (first : Fills packet i r m a r')
    (rest : Fills packet i r' (f a) b r'') : Fills packet i r (m >>= f) b r'' := by
  intro w hw hr
  obtain ⟨w', hm, hr', reads⟩ := first w hw hr
  obtain ⟨w'', hf, hr'', more⟩ := rest w' (reads.packet.trans hw) hr'
  refine ⟨w'', ?_, hr'', ?_⟩
  · rw [bind_apply, hm]
    exact hf
  · obtain ⟨ops, same, inside⟩ := more
    have same' : { w'' with slots := w.slots } =
        { { w' with slots := w.slots } with journal := w'.journal ++ ops } :=
      congrArg (fun u : World => { u with slots := w.slots }) same
    exact reads.trans ⟨ops, same', inside⟩

theorem load {off len : Nat} (inside : off + len ≤ packet.length) :
    Fills packet i r (load ⟨.packet, off⟩ len) (Buffer.peek packet off len) r := by
  rintro w rfl hr
  exact ⟨w.log (.read off len), rfl, hr, .log inside⟩

theorem load8 {off : Nat} (inside : off < packet.length) :
    Fills packet i r (load8 ⟨.packet, off⟩) (Buffer.byteAt packet off) r := by
  rintro w rfl hr
  exact ⟨w.log (.read off 1), rfl, hr, .log inside⟩

theorem store {m off : Nat} (v : Region m) (fits : off + m ≤ n) :
    Fills packet i r (store ⟨.slot i, off⟩ v) () (r.store off v fits) := by
  intro w _ hr
  refine ⟨w.patchSlot i off v.bytes, rfl, ?_, .refl w⟩
  have patched : World.patch r.bytes off v.bytes = (r.store off v fits).bytes := by
    rw [World.patch, v.size]
    rfl
  rw [World.patchSlot, List.getElem?_modify_eq, hr, ← patched]
  rfl

end Fills

end PacketProgram
