import Xcnf.Kernel.Bpf
import Xcnf.Flow.Accept
import Mathlib.Data.List.GetD
import Mathlib.Data.Nat.Bitwise

/-!
# `flat` as compiled

The function that `flat.ll` defines, block by block, under the labels and registers of that
file, without its flags `inbounds` and `align`. It was compiled for a little-endian target, and
the IPv6 case is gone from it.

On every frame it returns 0 without a fault, and what it hands to the ring buffer is what
`flat` does (`flat_returns`): no load leaves the packet, and all 48 bytes of the record have
been initialised.
-/

namespace Xcnf.Flow.Compiled

open Llvm Bpf

/-! ## The function -/

def block1 : Block where
  label := 1
  body := [
    .alloca 2 48,
    .call 3 6 [.global "flat.____fmt", .int 32 15],
    .call 4 39 [.reg 0, .int 32 0],
    .icmp 5 .slt 64 (.reg 4) (.int 64 0)]
  exit := .condBr (.reg 5) 74 6

def block6 : Block where
  label := 6
  body := [
    .gep 7 (.reg 0) 4,
    .load 8 32 (.reg 7),
    .bin 9 .add 32 (.reg 8) (.int 32 (-1)),
    .icmp 10 .ult 32 (.reg 9) (.int 32 2)]
  exit := .condBr (.reg 10) 74 11

def block11 : Block where
  label := 11
  body := [
    .gep 12 (.reg 0) 76,
    .load 13 32 (.reg 12),
    .zext 14 64 (.reg 13),
    .inttoptr 15 (.reg 14),
    .gep 16 (.reg 0) 80,
    .load 17 32 (.reg 16),
    .zext 18 64 (.reg 17),
    .inttoptr 19 (.reg 18),
    .gep 20 (.reg 15) 14,
    .icmpUgtPtr 21 (.reg 20) (.reg 19)]
  exit := .condBr (.reg 21) 74 22

def block22 : Block where
  label := 22
  body := [
    .lifetimeStart 48 (.reg 2),
    .memset (.reg 2) 0 48,
    .gep 23 (.reg 15) 12,
    .load 24 16 (.reg 23),
    .icmp 25 .eq 16 (.reg 24) (.int 16 8)]
  exit := .condBr (.reg 25) 26 73

def block26 : Block where
  label := 26
  body := [
    .gep 27 (.reg 15) 34,
    .icmpUgtPtr 28 (.reg 27) (.reg 19)]
  exit := .condBr (.reg 28) 73 29

def block29 : Block where
  label := 29
  body := [
    .gep 30 (.reg 15) 23,
    .load 31 8 (.reg 30)]
  exit := .switch 8 (.reg 31) 73 [(6, 32), (17, 32)]

def block32 : Block where
  label := 32
  body := [
    .gep 33 (.reg 15) 26,
    .load 34 32 (.reg 33),
    .gep 35 (.reg 2) 12,
    .store 32 (.reg 34) (.reg 35),
    .gep 36 (.reg 15) 30,
    .load 37 32 (.reg 36),
    .gep 38 (.reg 2) 28,
    .store 32 (.reg 37) (.reg 38),
    .gep 39 (.reg 2) 20,
    .store 32 (.int 32 65535) (.reg 39),
    .gep 40 (.reg 2) 36,
    .store 32 (.int 32 65535) (.reg 40),
    .store 8 (.reg 31) (.reg 40),
    .gep 41 (.reg 15) 22,
    .load 42 8 (.reg 41),
    .gep 43 (.reg 2) 37,
    .store 8 (.reg 42) (.reg 43),
    .gep 44 (.reg 15) 54,
    .icmpUgtPtr 45 (.reg 44) (.reg 19)]
  exit := .condBr (.reg 45) 73 46

def block46 : Block where
  label := 46
  body := []
  exit := .switch 8 (.reg 31) 73 [(6, 47), (17, 63)]

def block47 : Block where
  label := 47
  body := [
    .gep 48 (.reg 15) 46,
    .load 49 16 (.reg 48),
    .bin 50 .and 16 (.reg 49) (.int 16 512),
    .icmp 51 .eq 16 (.reg 50) (.int 16 0)]
  exit := .condBr (.reg 51) 73 52

def block52 : Block where
  label := 52
  body := [
    .load 53 16 (.reg 27),
    .gep 54 (.reg 2) 32,
    .store 16 (.reg 53) (.reg 54),
    .gep 55 (.reg 15) 36,
    .load 56 16 (.reg 55),
    .gep 57 (.reg 2) 34,
    .store 16 (.reg 56) (.reg 57),
    .gep 58 (.reg 2) 38,
    .store 8 (.int 8 1) (.reg 58),
    .gep 59 (.reg 2) 39,
    .bin 60 .lshr 16 (.reg 49) (.int 16 12),
    .trunc 61 8 16 (.reg 60),
    .bin 62 .and 8 (.reg 61) (.int 8 1),
    .store 8 (.reg 62) (.reg 59)]
  exit := .br 69

def block63 : Block where
  label := 63
  body := [
    .load 64 16 (.reg 27),
    .gep 65 (.reg 2) 32,
    .store 16 (.reg 64) (.reg 65),
    .gep 66 (.reg 15) 36,
    .load 67 16 (.reg 66),
    .gep 68 (.reg 2) 34,
    .store 16 (.reg 67) (.reg 68)]
  exit := .br 69

def block69 : Block where
  label := 69
  body := [
    .call 70 5 [],
    .gep 71 (.reg 2) 40,
    .store 64 (.reg 70) (.reg 71),
    .call 72 130 [.global "pipe", .reg 2, .int 64 48, .int 64 0]]
  exit := .br 73

def block73 : Block where
  label := 73
  body := [.lifetimeEnd 48 (.reg 2)]
  exit := .br 74

def block74 : Block where
  label := 74
  body := []
  exit := .ret (.int 32 0)

def flat : Code :=
  [block1, block6, block11, block22, block26, block29, block32, block46, block47, block52,
    block63, block69, block73, block74]

/-! ## What it is started on -/

def packet : Object := .foreign 0

/-- `@flat.____fmt`. -/
def fmt : List UInt8 := cString "Got a Packet!\n"

/-- The fields of `struct __sk_buff` that are loaded. The kernel turns `data` and `data_end`
into pointers. -/
def skbField (skb : SkBuff) : Nat → Nat → Option Val
  | 4, 32 => some (.int skb.pktType.toBitVec)
  | 76, 32 => some (.ptr ⟨packet, 0⟩)
  | 80, 32 => some (.ptr ⟨packet, skb.data.length⟩)
  | _, _ => none

def start (skb : SkBuff) : State (List Event) where
  regs := fun r => if r = 0 then some (.ptr ⟨.param 0, 0⟩) else none
  mem := fun o =>
    if o = .param 0 then some (.fields (skbField skb))
    else if o = packet then some (.bytes (skb.data.map some))
    else if o = .global "flat.____fmt" then some (.bytes (fmt.map some))
    else none
  world := []

/-! ## Loaded bytes and words -/

theorem take_one {data : List UInt8} {off : Nat} (inside : off < data.length) :
    (data.drop off).take 1 = [Buffer.byteAt data off] := by
  rw [List.drop_eq_getElem_cons inside, Buffer.byteAt, List.getD_eq_getElem _ _ inside]
  rfl

theorem take_two {data : List UInt8} {off : Nat} (inside : off + 2 ≤ data.length) :
    (data.drop off).take 2 = [Buffer.byteAt data off, Buffer.byteAt data (off + 1)] := by
  have tail : (data.drop (off + 1)).take 1 = [Buffer.byteAt data (off + 1)] :=
    take_one (by omega)
  rw [← List.drop_drop] at tail
  rw [List.take_add (j := 1), take_one (by omega), tail]
  rfl

/-- A loaded byte. -/
theorem loaded_byte {data : List UInt8} {off : Nat} (inside : off < data.length) :
    loaded data off 8 = (Buffer.byteAt data off).toBitVec := by
  have lt := (Buffer.byteAt data off).toNat_lt
  rw [loaded, take_one inside]
  apply BitVec.eq_of_toNat_eq
  rw [BitVec.toNat_ofNat, ByteOrder.decodeLittle, ByteOrder.decodeLittle]
  exact Nat.mod_eq_of_lt (by omega)

theorem encodeLittle_byte (b : UInt8) :
    ByteOrder.encodeLittle 1 b.toBitVec.toNat = (Region.ofByte b).bytes := by
  rw [ByteOrder.encodeLittle, UInt8.toNat_toBitVec, UInt8.ofNat_toNat]
  rfl

theorem encodeLittle_loaded_byte {data : List UInt8} {off : Nat} (inside : off < data.length) :
    ByteOrder.encodeLittle 1 (loaded data off 8).toNat =
      (Region.ofByte (Buffer.byteAt data off)).bytes := by
  rw [loaded_byte inside, encodeLittle_byte]

theorem loaded_pair {data : List UInt8} {off : Nat} (inside : off + 2 ≤ data.length) :
    (loaded data off 16).toNat =
      (Buffer.byteAt data off).toNat + 256 * (Buffer.byteAt data (off + 1)).toNat := by
  have lt := (Buffer.byteAt data off).toNat_lt
  have lt' := (Buffer.byteAt data (off + 1)).toNat_lt
  rw [loaded, take_two inside, BitVec.toNat_ofNat]
  simp only [ByteOrder.decodeLittle]
  omega

/-- Bit 9 of the word is bit 1 of its second byte. -/
theorem and_512_eq_zero {x : BitVec 16} {lo flags : UInt8}
    (h : x.toNat = lo.toNat + 256 * flags.toNat) :
    Cond.eq.eval (x &&& 512#16) 0#16 = !Tcphdr.syn flags := by
  have lt := lo.toNat_lt
  have bit : x.toNat &&& 2 ^ 9 = (flags.toNat &&& 2 ^ 1) * 256 := by
    rw [Nat.and_two_pow, Nat.and_two_pow, Nat.testBit_eq_decide_div_mod_eq,
      Nat.testBit_eq_decide_div_mod_eq, h,
      show (lo.toNat + 256 * flags.toNat) / 2 ^ 9 = flags.toNat / 2 ^ 1 by omega]
    omega
  rw [Cond.eval, Tcphdr.syn, bne, Bool.not_not, beq_eq_decide, decide_eq_decide, ← BitVec.toNat_inj,
    ← UInt8.toNat_inj, UInt8.toNat_and, BitVec.toNat_and]
  change x.toNat &&& 2 ^ 9 = 0 ↔ flags.toNat &&& 2 ^ 1 = 0
  omega

/-- Bit 12 of the word is bit 4 of its second byte. -/
theorem lshr_12_and_one {x : BitVec 16} {lo flags : UInt8}
    (h : x.toNat = lo.toNat + 256 * flags.toNat) :
    ((x >>> 12).setWidth 8 &&& 1#8).toNat = (boolByte (Tcphdr.ack flags)).toNat := by
  have lt := lo.toNat_lt
  have bit : (flags &&& 0x10).toNat = (flags.toNat.testBit 4).toNat * 16 := by
    rw [UInt8.toNat_and]
    exact Nat.and_two_pow _ 4
  have ack : Tcphdr.ack flags = flags.toNat.testBit 4 := by
    rw [Tcphdr.ack, Bool.eq_iff_iff, bne_iff_ne, ne_eq, ← UInt8.toNat_inj, bit]
    cases flags.toNat.testBit 4 <;> simp
  have word : ((x >>> 12).setWidth 8 &&& 1#8).toNat = flags.toNat / 16 % 2 := by
    rw [BitVec.toNat_and, BitVec.toNat_setWidth, BitVec.toNat_ushiftRight, h,
      Nat.shiftRight_eq_div_pow, show (1#8).toNat = 1 from rfl, Nat.and_one_is_mod]
    omega
  rw [word, ack, Nat.testBit_eq_decide_div_mod_eq]
  change flags.toNat / 16 % 2 = (boolByte (decide (flags.toNat / 16 % 2 = 1))).toNat
  rcases Nat.mod_two_eq_zero_or_one (flags.toNat / 16) with even | odd
  · rw [even]
    rfl
  · rw [odd]
    rfl

theorem encodeLittle_ack {x : BitVec 16} {lo flags : UInt8}
    (h : x.toNat = lo.toNat + 256 * flags.toNat) :
    ByteOrder.encodeLittle 1 ((x >>> 12).setWidth 8 &&& 1#8).toNat =
      (Region.ofByte (boolByte (Tcphdr.ack flags))).bytes := by
  rw [lshr_12_and_one h, ByteOrder.encodeLittle, UInt8.ofNat_toNat]
  rfl

/-- A switch on the protocol. -/
theorem protocol_switch (p : UInt8) (default tcp udp : Nat) :
    ((([(6, tcp), (17, udp)] : List (Int × Nat)).find?
      fun c => p.toBitVec = BitVec.ofInt 8 c.1).elim default (·.2)) =
      if p = ipprotoTcp then tcp else if p = ipprotoUdp then udp else default := by
  have isTcp : (p.toBitVec = BitVec.ofInt 8 6) ↔ p = ipprotoTcp := UInt8.toBitVec_inj (b := 6)
  have isUdp : (p.toBitVec = BitVec.ofInt 8 17) ↔ p = ipprotoUdp := UInt8.toBitVec_inj (b := 17)
  by_cases tcp : p = ipprotoTcp
  · subst tcp
    rfl
  · by_cases udp : p = ipprotoUdp
    · subst udp
      rfl
    · rw [if_neg tcp, if_neg udp, List.find?_cons_of_neg (by simp only [isTcp, tcp, decide_false,
        Bool.false_eq_true, not_false_eq_true]), List.find?_cons_of_neg (by simp only [isUdp, udp,
        decide_false, Bool.false_eq_true, not_false_eq_true])]
      rfl

/-- No bit is lost. -/
theorem trunc_of_lt {x : BitVec 16} (small : x.toNat < 16) :
    (x.setWidth 8).toNat = x.toNat ∧ (x.setWidth 8).toInt = x.toInt := by
  have low : (x.setWidth 8).toNat = x.toNat := by
    rw [BitVec.toNat_setWidth]
    omega
  refine ⟨low, ?_⟩
  rw [BitVec.toInt_eq_toNat_of_lt (by omega), BitVec.toInt_eq_toNat_of_lt (by omega), low]

/-- `PACKET_BROADCAST` and `PACKET_MULTICAST` are the two numbers that a decrement brings
below two. -/
theorem add_ult_two (t : UInt32) :
    Cond.ult.eval (t.toBitVec + BitVec.ofInt 32 (-1)) (BitVec.ofInt 32 2) =
      decide (t = packetBroadcast ∨ t = packetMulticast) := by
  have lt := t.toNat_lt
  rw [Cond.eval, BitVec.ult_eq_decide, decide_eq_decide, BitVec.toNat_add, ← UInt32.toNat_inj,
    ← UInt32.toNat_inj]
  change (t.toNat + 4294967295) % 4294967296 < 2 ↔ t.toNat = 1 ∨ t.toNat = 2
  omega

theorem etherType_eq {data : List UInt8} (inside : 14 ≤ data.length) :
    Cond.eq.eval (loaded data 12 16) (BitVec.ofInt 16 8) =
      decide (Frame.etherType data = ethPIp) := by
  have pair : (loaded data 12 16).toNat =
      (Buffer.byteAt data 12).toNat + 256 * (Buffer.byteAt data 13).toNat :=
    loaded_pair (by omega)
  have two : (Buffer.peek data 12 2).bytes = [Buffer.byteAt data 12, Buffer.byteAt data 13] :=
    (Buffer.peek_bytes (by omega)).trans (take_two (by omega))
  have lt := (Buffer.byteAt data 12).toNat_lt
  have lt' := (Buffer.byteAt data 13).toNat_lt
  have word : (Frame.etherType data).toNat =
      (Buffer.byteAt data 13).toNat + 256 * (Buffer.byteAt data 12).toNat := by
    rw [Frame.etherType, Region.toWord16, ByteOrder.word16, two]
    change (_ : Nat) % 65536 = _
    simp only [ByteOrder.decode, ByteOrder.decodeLittle, List.reverse_cons, List.reverse_nil,
      List.nil_append, List.cons_append]
    omega
  rw [Cond.eval, decide_eq_decide, ← BitVec.toNat_inj, ← UInt16.toNat_inj, pair, word]
  change _ = 8 ↔ _ = 2048
  omega

/-! ## What each block does -/

variable {results : Results} {skb : SkBuff} {s : State (List Event)}

/-- The function is left with 0 and the packet as it was, and these calls have been made. -/
def Left (data : List UInt8) (events : List Event) : Val → State (List Event) → Prop :=
  fun v s => v = .int (0 : BitVec 32) ∧ s.mem.Holds packet data ∧ s.world = events

/-- What the calls from block 69 add. -/
def sent (results : Results) (pkt : Record) : List Event :=
  if results.ringbufOutput < 0 then []
  else [.output "pipe" (stamp .little pkt results.ktimeGetNs).bytes]

/-- The record is in place, and the packet where `data` points to. -/
structure Located (data : List UInt8) (s : State (List Event)) : Prop where
  slot : s.val (.reg 2) = .ok (.ptr ⟨.slot 2, 0⟩)
  head : s.val (.reg 15) = .ok (.ptr ⟨packet, 0⟩)
  tail : s.val (.reg 19) = .ok (.ptr ⟨packet, data.length⟩)
  packet : s.mem.Holds packet data

@[simp] theorem holds_packet {data : List UInt8} {m : Memory} {chunk : Option Chunk} :
    (m.set (.slot 2) chunk).Holds packet data ↔ m.Holds packet data :=
  Memory.holds_set_of_ne (by decide)

theorem block74_returns {data : List UInt8} (h : s.mem.Holds packet data) :
    Returns (host results) flat 1 74 s (Left data s.world) := by
  refine .block (b := block74) rfl ?_
  exact .ret rfl ⟨rfl, h, rfl⟩

theorem block73_returns {data : List UInt8} (h : Located data s) :
    Returns (host results) flat 2 73 s (Left data s.world) := by
  refine .block (b := block73) rfl ?_
  refine .lifetimeEnd h.slot ?_
  exact .br (block74_returns (by simpa using h.packet))

theorem append_sent (events : List Event) (pkt : Record) :
    (if results.ringbufOutput < 0 then events
      else events ++ [.output "pipe" (stamp .little pkt results.ktimeGetNs).bytes]) =
      events ++ sent results pkt := by
  rw [sent]
  split
  · rw [List.append_nil]
  · rfl

theorem block69_returns {data : List UInt8} {pkt : Record} (h : Located data s)
    (record : s.mem.Holds (.slot 2) pkt.bytes) :
    Returns (host results) flat 3 69 s (Left data (s.world ++ sent results pkt)) := by
  rw [← append_sent]
  refine .block (b := block69) rfl ?_
  refine .call rfl host_ktimeGetNs ?_
  refine .gep h.slot ?_
  refine .storeRegion (y := .ofWord64 .little results.ktimeGetNs) rfl rfl record
    PacketT.fits.ts rfl rfl ?_
  refine .call (State.vals_cons rfl (State.vals_cons h.slot rfl))
    (host_ringbufOutput (State.holds_write _ _ _) (Region.size _).symm _ _) ?_
  exact .br (block73_returns ⟨h.slot, h.head, h.tail, by simpa using h.packet⟩)

section

variable {data : List UInt8} {pkt : Record}

theorem encodeLittle_loaded_peek {off k : Nat} (inside : off + k ≤ data.length) :
    ByteOrder.encodeLittle k (loaded data off (8 * k)).toNat = (Buffer.peek data off k).bytes :=
  (encodeLittle_loaded inside).trans (Buffer.peek_bytes inside).symm

/-- The stores of the ports, that both transports make. -/
def portStores (data : List UInt8) (pkt : Record) : Record :=
  (pkt.store PacketT.offSrcPort (Frame.srcPort data) PacketT.fits.srcPort).store
    PacketT.offDstPort (Frame.dstPort data) PacketT.fits.dstPort

theorem block63_returns (h : Located data s) (long : 54 ≤ data.length)
    (udp : s.val (.reg 27) = .ok (.ptr ⟨packet, 34⟩)) (record : s.mem.Holds (.slot 2) pkt.bytes) :
    Returns (host results) flat 4 63 s
      (Left data (s.world ++ sent results (portStores data pkt))) := by
  refine .block (b := block63) rfl ?_
  refine .load udp h.packet (by omega) ?_
  refine .gep h.slot ?_
  refine .storeRegion rfl rfl record PacketT.fits.srcPort rfl
    (encodeLittle_loaded_peek (by omega)) ?_
  refine .gep h.head ?_
  refine .load rfl (by simpa using h.packet) (by omega) ?_
  refine .gep h.slot ?_
  refine .storeRegion rfl rfl (State.holds_write _ _ _) PacketT.fits.dstPort rfl
    (encodeLittle_loaded_peek (by omega)) ?_
  exact .br (block69_returns ⟨h.slot, h.head, h.tail, by simpa using h.packet⟩
    (State.holds_write _ _ _))

/-- The stores that a TCP segment with SYN adds. -/
def flagStores (data : List UInt8) (pkt : Record) : Record :=
  (pkt.store PacketT.offSyn (.ofByte 1) PacketT.fits.syn).store PacketT.offAck
    (.ofByte (boolByte (Tcphdr.ack (Frame.tcpFlags data)))) PacketT.fits.ack

theorem block52_returns (h : Located data s) (long : 54 ≤ data.length)
    (tcp : s.val (.reg 27) = .ok (.ptr ⟨packet, 34⟩))
    (flags : s.val (.reg 49) = .ok (.int (loaded data 46 16)))
    (record : s.mem.Holds (.slot 2) pkt.bytes) :
    Returns (host results) flat 4 52 s
      (Left data (s.world ++ sent results (flagStores data (portStores data pkt)))) := by
  have pair : (loaded data 46 16).toNat =
      (Buffer.byteAt data 46).toNat + 256 * (Frame.tcpFlags data).toNat :=
    loaded_pair (by omega)
  have small : (loaded data 46 16 >>> 12).toNat < 16 := by
    rw [BitVec.toNat_ushiftRight, Nat.shiftRight_eq_div_pow]
    omega
  refine .block (b := block52) rfl ?_
  refine .load tcp h.packet (by omega) ?_
  refine .gep h.slot ?_
  refine .storeRegion rfl rfl record PacketT.fits.srcPort rfl
    (encodeLittle_loaded_peek (by omega)) ?_
  refine .gep h.head ?_
  refine .load rfl (by simpa using h.packet) (by omega) ?_
  refine .gep h.slot ?_
  refine .storeRegion rfl rfl (State.holds_write _ _ _) PacketT.fits.dstPort rfl
    (encodeLittle_loaded_peek (by omega)) ?_
  refine .gep h.slot ?_
  refine .storeRegion (y := .ofByte 1) rfl rfl (State.holds_write _ _ _) PacketT.fits.syn rfl rfl ?_
  refine .gep h.slot ?_
  refine .bin flags rfl (z := loaded data 46 16 >>> 12) rfl ?_
  refine .trunc rfl (trunc_of_lt small) ?_
  refine .bin rfl rfl rfl ?_
  refine .storeRegion (y := .ofByte (boolByte (Tcphdr.ack (Frame.tcpFlags data)))) rfl rfl
    (State.holds_write _ _ _) PacketT.fits.ack rfl (encodeLittle_ack pair) ?_
  exact .br (block69_returns ⟨h.slot, h.head, h.tail, by simpa using h.packet⟩
    (State.holds_write _ _ _))

theorem Left.of_eq {events events' : List Event} {n label : Nat} (h : events = events')
    (returns : Returns (host results) flat n label s (Left data events)) :
    Returns (host results) flat n label s (Left data events') := h ▸ returns

/-- A block that the record does not survive. -/
theorem dropped {n : Nat} (h : Located data s) (le : 2 ≤ n) :
    Returns (host results) flat n 73 s (Left data (s.world ++ [])) := by
  rw [List.append_nil]
  exact (block73_returns h).mono le

theorem block47_returns (h : Located data s) (long : 54 ≤ data.length)
    (tcp : s.val (.reg 27) = .ok (.ptr ⟨packet, 34⟩)) (record : s.mem.Holds (.slot 2) pkt.bytes) :
    Returns (host results) flat 5 47 s
      (Left data (s.world ++ if Tcphdr.syn (Frame.tcpFlags data)
        then sent results (flagStores data (portStores data pkt)) else [])) := by
  have pair : (loaded data 46 16).toNat =
      (Buffer.byteAt data 46).toNat + 256 * (Frame.tcpFlags data).toNat :=
    loaded_pair (by omega)
  refine .block (b := block47) rfl ?_
  refine .gep h.head ?_
  refine .load rfl h.packet (by omega) ?_
  refine .bin rfl rfl rfl ?_
  refine .icmp rfl rfl ?_
  refine .condBr (c := !Tcphdr.syn (Frame.tcpFlags data)) ?_ ?_
  · rw [← and_512_eq_zero pair]
    rfl
  · cases Tcphdr.syn (Frame.tcpFlags data) with
    | false => exact dropped ⟨h.slot, h.head, h.tail, h.packet⟩ (by omega)
    | true => exact block52_returns ⟨h.slot, h.head, h.tail, h.packet⟩ long tcp rfl record

/-- What comes of a record once the addresses are in it. -/
def traced (results : Results) (data : List UInt8) (pkt : Record) : List Event :=
  if Frame.Traced data then sent results (transportStores data pkt) else []

theorem block46_returns (h : Located data s) (long : 54 ≤ data.length)
    (l4 : s.val (.reg 27) = .ok (.ptr ⟨packet, 34⟩))
    (protocol : s.val (.reg 31) = .ok (.int (Frame.protocol data).toBitVec))
    (record : s.mem.Holds (.slot 2) pkt.bytes) :
    Returns (host results) flat 6 46 s (Left data (s.world ++ traced results data pkt)) := by
  refine .block (b := block46) rfl ?_
  refine .switch protocol ?_
  rw [protocol_switch]
  by_cases tcp : Frame.protocol data = ipprotoTcp
  · rw [if_pos tcp]
    refine Left.of_eq ?_ (block47_returns h long l4 record)
    cases syn : Tcphdr.syn (Frame.tcpFlags data) with
    | false => simp [traced, Frame.Traced, tcp, syn, ipprotoTcp, ipprotoUdp]
    | true =>
        simp [traced, Frame.Traced, tcp, syn, transportStores, flagStores, portStores, boolByte]
  · by_cases udp : Frame.protocol data = ipprotoUdp
    · rw [if_neg tcp, if_pos udp]
      refine Left.of_eq ?_ ((block63_returns h long l4 record).mono (by omega))
      simp [traced, Frame.Traced, udp, transportStores, portStores, ipprotoTcp, ipprotoUdp]
    · rw [if_neg tcp, if_neg udp]
      refine Left.of_eq ?_ (dropped h (by omega))
      simp [traced, Frame.Traced, tcp, udp]

/-- What comes of an IPv4 packet. -/
def ipv4Events (results : Results) (data : List UInt8) (pkt : Record) : List Event :=
  if Frame.l4 + sizeofTcphdr ≤ data.length then traced results data (ipv4Stores .little data pkt)
  else []

theorem block32_returns (h : Located data s) (long : 34 ≤ data.length)
    (l4 : s.val (.reg 27) = .ok (.ptr ⟨packet, 34⟩))
    (protocol : s.val (.reg 31) = .ok (.int (Frame.protocol data).toBitVec))
    (record : s.mem.Holds (.slot 2) pkt.bytes) :
    Returns (host results) flat 7 32 s (Left data (s.world ++ ipv4Events results data pkt)) := by
  refine .block (b := block32) rfl ?_
  refine .gep h.head ?_
  refine .load rfl h.packet (by omega) ?_
  refine .gep h.slot ?_
  refine .storeRegion rfl rfl record PacketT.fits.srcIpWord3 rfl
    (encodeLittle_loaded_peek (by omega)) ?_
  refine .gep h.head ?_
  refine .load rfl (by simpa using h.packet) (by omega) ?_
  refine .gep h.slot ?_
  refine .storeRegion rfl rfl (State.holds_write _ _ _) PacketT.fits.dstIpWord3 rfl
    (encodeLittle_loaded_peek (by omega)) ?_
  refine .gep h.slot ?_
  refine .storeRegion (y := .ofWord32 .little 0xffff) rfl rfl (State.holds_write _ _ _)
    PacketT.fits.srcIpWord5 rfl rfl ?_
  refine .gep h.slot ?_
  refine .storeRegion (y := .ofWord32 .little 0xffff) rfl rfl (State.holds_write _ _ _)
    PacketT.fits.dstIpWord5 rfl rfl ?_
  refine .storeRegion (y := .ofByte (Frame.protocol data)) protocol rfl (State.holds_write _ _ _)
    PacketT.fits.protocol rfl (encodeLittle_byte _) ?_
  refine .gep h.head ?_
  refine .load rfl (by simpa using h.packet) (by omega) ?_
  refine .gep h.slot ?_
  refine .storeRegion (y := .ofByte (Frame.ttl data)) rfl rfl (State.holds_write _ _ _)
    PacketT.fits.ttl rfl (encodeLittle_loaded_byte (by omega)) ?_
  refine .gep h.head ?_
  refine .icmpUgtPtr rfl h.tail ?_
  refine .condBr rfl ?_
  rw [ipv4Events]
  by_cases short : data.length < 54
  · rw [if_pos (decide_eq_true short), if_neg (by simp only [Frame.l4, sizeofTcphdr]; omega)]
    exact dropped ⟨h.slot, h.head, h.tail, by simpa using h.packet⟩ (by omega)
  · rw [if_neg (by simpa using short), if_pos (by simp only [Frame.l4, sizeofTcphdr]; omega)]
    exact block46_returns ⟨h.slot, h.head, h.tail, by simpa using h.packet⟩ (by omega) l4 protocol
      (State.holds_write _ _ _)

theorem block29_returns (h : Located data s) (long : 34 ≤ data.length)
    (l4 : s.val (.reg 27) = .ok (.ptr ⟨packet, 34⟩)) (record : s.mem.Holds (.slot 2) pkt.bytes) :
    Returns (host results) flat 8 29 s (Left data (s.world ++ ipv4Events results data pkt)) := by
  refine .block (b := block29) rfl ?_
  refine .gep h.head ?_
  refine .load rfl h.packet (by omega) ?_
  have protocol : loaded data (0 + 23) 8 = (Frame.protocol data).toBitVec :=
    loaded_byte (by omega)
  rw [protocol]
  refine .switch rfl ?_
  rw [protocol_switch]
  have located : Located data ((s.set 30 (.ptr ⟨packet, 0 + 23⟩)).set 31
      (.int (Frame.protocol data).toBitVec)) := ⟨h.slot, h.head, h.tail, h.packet⟩
  by_cases transport : Frame.protocol data = ipprotoTcp ∨ Frame.protocol data = ipprotoUdp
  · have target : (if Frame.protocol data = ipprotoTcp then 32
        else if Frame.protocol data = ipprotoUdp then 32 else 73) = 32 := by
      cases transport with
      | inl tcp => rw [if_pos tcp]
      | inr udp => rw [if_pos udp, ite_self]
    rw [target]
    exact block32_returns located long l4 rfl record
  · obtain ⟨tcp, udp⟩ := not_or.mp transport
    rw [if_neg tcp, if_neg udp]
    refine Left.of_eq ?_ (dropped located (by omega))
    simp [ipv4Events, traced, Frame.Traced, tcp, udp]

theorem block26_returns (h : Located data s) (record : s.mem.Holds (.slot 2) pkt.bytes) :
    Returns (host results) flat 9 26 s (Left data (s.world ++ ipv4Events results data pkt)) := by
  refine .block (b := block26) rfl ?_
  refine .gep h.head ?_
  refine .icmpUgtPtr rfl h.tail ?_
  refine .condBr rfl ?_
  by_cases short : data.length < 34
  · rw [if_pos (decide_eq_true short)]
    refine Left.of_eq ?_ (dropped ⟨h.slot, h.head, h.tail, h.packet⟩ (by omega))
    rw [ipv4Events, if_neg (by simp only [Frame.l4, sizeofTcphdr]; omega)]
    rfl
  · rw [if_neg (by simpa using short)]
    exact block29_returns ⟨h.slot, h.head, h.tail, h.packet⟩ (by omega) rfl record

/-- What comes of a frame that is long enough for an Ethernet header. -/
def frameEvents (results : Results) (data : List UInt8) : List Event :=
  if Frame.etherType data = ethPIp then ipv4Events results data (Region.zero sizeofPacketT) else []

theorem block22_returns (h : Located data s) (long : 14 ≤ data.length) :
    Returns (host results) flat 10 22 s (Left data (s.world ++ frameEvents results data)) := by
  refine .block (b := block22) rfl ?_
  refine .lifetimeStart h.slot ?_
  refine .memset h.slot rfl List.length_replicate ?_
  refine .gep h.head ?_
  refine .load rfl (by simpa using h.packet) (by omega) ?_
  refine .icmp rfl rfl ?_
  refine .condBr (c := decide (Frame.etherType data = ethPIp)) ?_ ?_
  · rw [← etherType_eq long]
    rfl
  · by_cases ip : Frame.etherType data = ethPIp
    · rw [if_pos (decide_eq_true ip), frameEvents, if_pos ip]
      exact block26_returns ⟨h.slot, h.head, h.tail, by simpa using h.packet⟩
        (State.holds_write _ _ _)
    · rw [if_neg (by simpa using ip), frameEvents, if_neg ip]
      exact dropped ⟨h.slot, h.head, h.tail, by simpa using h.packet⟩ (by omega)

end

/-! ## The whole function -/

/-- The argument is the context, and the packet is where its fields say. -/
structure Entered (skb : SkBuff) (s : State (List Event)) : Prop where
  context : s.val (.reg 0) = .ok (.ptr ⟨.param 0, 0⟩)
  slot : s.val (.reg 2) = .ok (.ptr ⟨.slot 2, 0⟩)
  fields : s.mem (.param 0) = some (.fields (skbField skb))
  packet : s.mem.Holds packet skb.data

/-- A packet that is left alone from the start. -/
theorem Entered.passed {n : Nat} (h : Entered skb s) (le : 1 ≤ n) :
    Returns (host results) flat n 74 s (Left skb.data (s.world ++ [])) := by
  rw [List.append_nil]
  exact (block74_returns h.packet).mono le

theorem block11_returns (h : Entered skb s) :
    Returns (host results) flat 11 11 s (Left skb.data (s.world ++
      if sizeofEthhdr ≤ skb.data.length then frameEvents results skb.data else [])) := by
  refine .block (b := block11) rfl ?_
  refine .gep h.context ?_
  refine .loadField rfl h.fields rfl ?_
  refine .zextPtr rfl ?_
  refine .inttoptr rfl ?_
  refine .gep h.context ?_
  refine .loadField rfl h.fields rfl ?_
  refine .zextPtr rfl ?_
  refine .inttoptr rfl ?_
  refine .gep rfl ?_
  refine .icmpUgtPtr rfl rfl ?_
  refine .condBr rfl ?_
  by_cases short : skb.data.length < 14
  · rw [if_pos (decide_eq_true short), if_neg (by simp only [sizeofEthhdr]; omega)]
    exact Entered.passed ⟨h.context, h.slot, h.fields, h.packet⟩ (by omega)
  · rw [if_neg (by simpa using short), if_pos (by simp only [sizeofEthhdr]; omega)]
    exact block22_returns ⟨h.slot, rfl, rfl, h.packet⟩ (by omega)

/-- The calls that report the packet. -/
def reports (results : Results) (skb : SkBuff) : List Event :=
  if Accepts skb then sent results (ipv4Record .little skb.data) else []

theorem reports_of_unicast (broadcast : skb.pktType ≠ packetBroadcast)
    (multicast : skb.pktType ≠ packetMulticast) :
    reports results skb =
      if sizeofEthhdr ≤ skb.data.length then frameEvents results skb.data else [] := by
  simp only [reports, Accepts, frameEvents, ipv4Events, traced, ipv4Record, sizeofEthhdr,
    Frame.l4, sizeofTcphdr]
  grind

theorem block6_returns (h : Entered skb s) :
    Returns (host results) flat 12 6 s (Left skb.data (s.world ++ reports results skb)) := by
  refine .block (b := block6) rfl ?_
  refine .gep h.context ?_
  refine .loadField rfl h.fields rfl ?_
  refine .bin rfl rfl rfl ?_
  refine .icmp rfl rfl ?_
  refine .condBr
    (c := decide (skb.pktType = packetBroadcast ∨ skb.pktType = packetMulticast)) ?_ ?_
  · rw [← add_ult_two]
    rfl
  · by_cases cast : skb.pktType = packetBroadcast ∨ skb.pktType = packetMulticast
    · rw [if_pos (decide_eq_true cast), reports, if_neg fun h => cast.elim h.1 h.2.1]
      exact Entered.passed ⟨h.context, h.slot, h.fields, h.packet⟩ (by omega)
    · obtain ⟨broadcast, multicast⟩ := not_or.mp cast
      rw [if_neg (by simpa using cast), reports_of_unicast broadcast multicast]
      exact block11_returns ⟨h.context, h.slot, h.fields, h.packet⟩

/-- A helper returns a `long`. -/
def IsLong (v : Int) : Prop := -2 ^ 63 ≤ v ∧ v < 2 ^ 63

instance (v : Int) : Decidable (IsLong v) := inferInstanceAs (Decidable (_ ∧ _))

theorem slt_zero {v : Int} (h : IsLong v) :
    Cond.slt.eval (BitVec.ofInt 64 v) (BitVec.ofInt 64 0) = decide (v < 0) := by
  have signed : (BitVec.ofInt 64 v).toInt = v := BitVec.toInt_ofInt_eq_self (by omega) h.1 h.2
  rw [Cond.eval, BitVec.slt_eq_decide, signed]
  rfl

/-- A message for the trace pipe comes first, and at most one record follows. -/
theorem block1_returns (long : IsLong results.skbPullData) :
    Returns (host results) flat 13 1 (start skb) (Left skb.data
      (.print fmt [] :: if 0 ≤ results.skbPullData then reports results skb else [])) := by
  refine .block (b := block1) rfl ?_
  refine .alloca ?_
  have constant : Memory.Holds ((start skb).mem.set (.slot 2)
      (some (.bytes (List.replicate 48 none)))) (.global "flat.____fmt") fmt := rfl
  refine .call rfl (host_tracePrintk constant rfl []) ?_
  refine .call rfl (host_skbPullData _ _) ?_
  refine .icmp rfl rfl ?_
  refine .condBr (c := decide (results.skbPullData < 0)) ?_ ?_
  · rw [← slt_zero long]
    rfl
  · by_cases failed : results.skbPullData < 0
    · rw [if_pos (decide_eq_true failed), if_neg (by omega)]
      exact @Entered.passed _ skb _ _ ⟨rfl, rfl, rfl, rfl⟩ (by omega)
    · rw [if_neg (by simpa using failed), if_pos (by omega)]
      exact @block6_returns _ skb _ ⟨rfl, rfl, rfl, rfl⟩

/-- The results of the helpers that `flat` uses, and that of the message. -/
def resultsOf (env : Helpers) (printed : Int) : Results where
  tracePrintk := printed
  skbPullData := env.skbPullData
  ktimeGetNs := env.ktimeGetNs
  ringbufOutput := env.ringbufOutput

/-- The compiled function does what the source says, on every frame and whatever the helpers
return: it comes to its end after at most 13 blocks, without a fault. -/
theorem flat_refines (env : Helpers) (printed : Int) (skb : SkBuff) (long : IsLong env.skbPullData)
    {blocks : Nat} (enough : 13 ≤ blocks) :
    ∃ records s, Flow.flat .little env skb = .ok (tcActOk, records) ∧
      run (host (resultsOf env printed)) flat blocks 1 (start skb) =
        .ok (.int (BitVec.ofInt 32 tcActOk), s) ∧
      s.mem.Holds packet skb.data ∧
      s.world = .print fmt [] :: records.map fun pkt => .output "pipe" pkt.bytes := by
  obtain ⟨v, s, ran, rfl, same, world⟩ :=
    (@block1_returns (resultsOf env printed) skb long).mono enough
  refine ⟨_, s, flat_eq .little env skb, ran, same, ?_⟩
  rw [world]
  simp only [reports, sent, resultsOf, ipv4Event]
  grind

theorem flat_refines_syn :
    IsLong (Helpers.succeedAt 7).skbPullData ∧ 13 ≤ 20 ∧
    ∃ records s, Flow.flat .little (Helpers.succeedAt 7) synFrame = .ok (tcActOk, records) ∧
      run (host (resultsOf (Helpers.succeedAt 7) 14)) flat 20 1 (start synFrame) =
        .ok (.int (BitVec.ofInt 32 tcActOk), s) ∧
      s.mem.Holds packet synFrame.data ∧
      s.world = .print fmt [] :: records.map fun pkt => .output "pipe" pkt.bytes :=
  ⟨by decide, by decide, flat_refines (Helpers.succeedAt 7) 14 synFrame (by decide) (by decide)⟩

end Xcnf.Flow.Compiled
