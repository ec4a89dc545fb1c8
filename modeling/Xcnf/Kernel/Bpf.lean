import Xcnf.Lib.Llvm

/-!
# Helpers of the kernel for compiled programs

A compiled program calls a helper by its number. A call to `bpf_trace_printk` and a record
that `bpf_ringbuf_output` takes are noted in the order in which they happen; the bytes that
they are given must be initialised.
-/

namespace Xcnf.Bpf

open Llvm

inductive Event where
  | print (fmt : List UInt8) (args : List Val)
  | output (ring : String) (record : List UInt8)
  deriving DecidableEq

/-- What the helpers return during one invocation. -/
structure Results where
  tracePrintk : Int
  skbPullData : Int
  ktimeGetNs : UInt64
  ringbufOutput : Int

/-- A constant string of C, without characters outside of ASCII. -/
def cString (s : String) : List UInt8 := s.toList.map (fun c => UInt8.ofNat c.toNat) ++ [0]

/-- The helpers, under the numbers that the kernel gives them. -/
def host (results : Results) : Host (List Event)
  | 5, [], _, events => .ok (.int results.ktimeGetNs.toBitVec, events)
  | 6, fmt :: size :: args, mem, events => do
    let bs ← mem.read (← fmt.asPtr) (← size.asInt 32).toNat
    return (.int (BitVec.ofInt 64 results.tracePrintk), events ++ [.print bs args])
  | 39, [_, _], _, events => .ok (.int (BitVec.ofInt 64 results.skbPullData), events)
  | 130, [.ptr ⟨.global ring, 0⟩, record, size, _], mem, events => do
    let bs ← mem.read (← record.asPtr) (← size.asInt 64).toNat
    return (.int (BitVec.ofInt 64 results.ringbufOutput),
      if results.ringbufOutput < 0 then events else events ++ [.output ring bs])
  | number, _, _, _ => .error (.call number)

variable {results : Results} {mem : Memory} {events : List Event} {o : Object} {bs : List UInt8}

theorem host_ktimeGetNs :
    host results 5 [] mem events = .ok (.int results.ktimeGetNs.toBitVec, events) := rfl

/-- All of an object is the format. -/
theorem host_tracePrintk (h : mem.Holds o bs) {size : BitVec 32} (all : size.toNat = bs.length)
    (args : List Val) :
    host results 6 (.ptr ⟨o, 0⟩ :: .int size :: args) mem events =
      .ok (.int (BitVec.ofInt 64 results.tracePrintk), events ++ [.print bs args]) := by
  have read : mem.read ⟨o, 0⟩ size.toNat = .ok bs := by
    rw [all, h.read (by omega), List.drop_zero, List.take_length]
  rw [host, Val.asPtr, Val.asInt_int, Checked.ok_bind, Checked.ok_bind, read]
  rfl

theorem host_skbPullData (skb flags : Val) :
    host results 39 [skb, flags] mem events =
      .ok (.int (BitVec.ofInt 64 results.skbPullData), events) := rfl

/-- All of an object is the record. -/
theorem host_ringbufOutput (h : mem.Holds o bs) {size : BitVec 64}
    (all : size.toNat = bs.length) (ring : String) (flags : Val) :
    host results 130 [.ptr ⟨.global ring, 0⟩, .ptr ⟨o, 0⟩, .int size, flags] mem events =
      .ok (.int (BitVec.ofInt 64 results.ringbufOutput),
        if results.ringbufOutput < 0 then events else events ++ [.output ring bs]) := by
  have read : mem.read ⟨o, 0⟩ size.toNat = .ok bs := by
    rw [all, h.read (by omega), List.drop_zero, List.take_length]
  rw [host, Val.asPtr, Val.asInt_int, Checked.ok_bind, Checked.ok_bind, read]
  rfl

end Xcnf.Bpf
