import Xcnf.Kernel.Bpf

/-!
# Tracing `kill`

`kill_example` is attached to the tracepoint of the system call `kill` and prints a line for
the signal 9. `Compiled.killExample` is the function that `kill.ll` defines, block by block,
under the labels and registers of that file and without its flags `inbounds` and `align`. The
two agree on every call (`Compiled.kill_refines`).
-/

namespace Xcnf.TraceKills

open Llvm Bpf

/-- `struct syscalls_enter_kill_args`. -/
structure SyscallsEnterKillArgs where
  pad : Int64
  syscallNr : Int64
  pid : Int64
  sig : Int64
  deriving DecidableEq

/-- The format `fmt`. -/
def fmt : List UInt8 := cString "PID %u is being killed!\n"

/-- `kill_example`: the returned code and the calls of `bpf_trace_printk`. -/
def killExample (ctx : SyscallsEnterKillArgs) : Int × List Event :=
  if ctx.sig ≠ 9 then
    (0, [])
  else
    -- the size of the field is passed after the format's own argument
    (0, [.print fmt [.int ctx.pid.toBitVec, .int (8 : BitVec 64)]])

namespace Compiled

def block1 : Block where
  label := 1
  body := [
    .alloca 2 25,
    .gep 3 (.reg 0) 24,
    .load 4 64 (.reg 3),
    .icmp 5 .eq 64 (.reg 4) (.int 64 9)]
  exit := .condBr (.reg 5) 6 10

def block6 : Block where
  label := 6
  body := [
    .lifetimeStart 25 (.reg 2),
    .memcpy (.reg 2) (.global "__const.kill_example.fmt") 25,
    .gep 7 (.reg 0) 16,
    .load 8 64 (.reg 7),
    .call 9 6 [.reg 2, .int 32 25, .reg 8, .int 64 8],
    .lifetimeEnd 25 (.reg 2)]
  exit := .br 10

def block10 : Block where
  label := 10
  body := []
  exit := .ret (.int 32 0)

def killExample : Code := [block1, block6, block10]

/-- The arguments as they lie in memory. -/
def layout (ctx : SyscallsEnterKillArgs) : List UInt8 :=
  [ctx.pad, ctx.syscallNr, ctx.pid, ctx.sig].flatMap fun v =>
    ByteOrder.encodeLittle 8 v.toBitVec.toNat

def start (ctx : SyscallsEnterKillArgs) : State (List Event) where
  regs := fun r => if r = 0 then some (.ptr ⟨.param 0, 0⟩) else none
  mem := fun o =>
    if o = .param 0 then some (.bytes ((layout ctx).map some))
    else if o = .global "__const.kill_example.fmt" then some (.bytes (fmt.map some))
    else none
  world := []

theorem length_layout (ctx : SyscallsEnterKillArgs) : (layout ctx).length = 32 := by
  simp [layout]

theorem loaded_pid (ctx : SyscallsEnterKillArgs) :
    loaded (layout ctx) 16 64 = ctx.pid.toBitVec := by
  apply loaded_of_bytes (k := 8)
  simp [layout, List.drop_append, List.take_append]

theorem loaded_sig (ctx : SyscallsEnterKillArgs) :
    loaded (layout ctx) 24 64 = ctx.sig.toBitVec := by
  apply loaded_of_bytes (k := 8)
  simp [layout, List.drop_append, List.drop_of_length_le, List.take_of_length_le]

/-! ## What each block does -/

variable {results : Results} {ctx : SyscallsEnterKillArgs} {s : State (List Event)}

/-- The function is left with 0 and its arguments as they were, and these calls have been
made. -/
def Left (ctx : SyscallsEnterKillArgs) (events : List Event) : Val → State (List Event) → Prop :=
  fun v s => v = .int (0 : BitVec 32) ∧ s.mem.Holds (.param 0) (layout ctx) ∧ s.world = events

theorem block10_returns (args : s.mem.Holds (.param 0) (layout ctx)) :
    Returns (host results) killExample 1 10 s (Left ctx s.world) := by
  refine .block (b := block10) rfl ?_
  exact .ret rfl ⟨rfl, args, rfl⟩

/-- The arguments and the format are in memory, and there is room for a copy. -/
structure Entered (ctx : SyscallsEnterKillArgs) (s : State (List Event)) : Prop where
  context : s.val (.reg 0) = .ok (.ptr ⟨.param 0, 0⟩)
  slot : s.val (.reg 2) = .ok (.ptr ⟨.slot 2, 0⟩)
  args : s.mem.Holds (.param 0) (layout ctx)
  constant : s.mem.Holds (.global "__const.kill_example.fmt") fmt

@[simp] theorem holds_other {m : Memory} {chunk : Option Chunk} {o : Object} {bs : List UInt8}
    (ne : o ≠ .slot 2) : (m.set (.slot 2) chunk).Holds o bs ↔ m.Holds o bs :=
  Memory.holds_set_of_ne ne

theorem block6_returns (h : Entered ctx s) :
    Returns (host results) killExample 2 6 s
      (Left ctx (s.world ++ [.print fmt [.int ctx.pid.toBitVec, .int (8 : BitVec 64)]])) := by
  have pid : loaded (layout ctx) (0 + 16) 64 = ctx.pid.toBitVec := loaded_pid ctx
  refine .block (b := block6) rfl ?_
  refine .lifetimeStart h.slot ?_
  refine .memcpy h.slot rfl rfl (by simpa using h.constant) List.length_replicate rfl ?_
  refine .gep h.context ?_
  refine .load rfl (by simpa using h.args) (by rw [length_layout]; decide) ?_
  rw [pid]
  refine .call (State.vals_cons h.slot (State.vals_cons rfl (State.vals_cons rfl
    (State.vals_cons rfl rfl)))) (host_tracePrintk (State.holds_write _ _ _) rfl _) ?_
  refine .lifetimeEnd h.slot ?_
  exact .br (block10_returns (by simpa using h.args))

theorem block1_returns (ctx : SyscallsEnterKillArgs) :
    Returns (host results) killExample 3 1 (start ctx)
      (Left ctx (TraceKills.killExample ctx).2) := by
  have sig : loaded (layout ctx) (0 + 24) 64 = ctx.sig.toBitVec := loaded_sig ctx
  have nine : (ctx.sig.toBitVec = BitVec.ofInt 64 9) ↔ ctx.sig = 9 := Int64.toBitVec_inj (b := 9)
  have args : (start ctx).mem.Holds (.param 0) (layout ctx) := rfl
  refine .block (b := block1) rfl ?_
  refine .alloca ?_
  refine .gep rfl ?_
  refine .load rfl (by simpa using args) (by rw [length_layout]) ?_
  rw [sig]
  refine .icmp rfl rfl ?_
  refine .condBr rfl ?_
  rw [Cond.eval]
  by_cases killed : ctx.sig = 9
  · rw [if_pos (decide_eq_true (nine.mpr killed)), TraceKills.killExample,
      if_neg (not_not.mpr killed)]
    exact block6_returns ⟨rfl, rfl, by simpa using args, rfl⟩
  · rw [if_neg (by rw [decide_eq_true_eq, nine]; exact killed), TraceKills.killExample,
      if_pos killed]
    exact (block10_returns (by simpa using args)).mono (by omega)

/-- The compiled function does what the source says, on every call: it comes to its end after
at most 3 blocks, without a fault, and prints a line exactly for the signal 9. -/
theorem kill_refines (results : Results) (ctx : SyscallsEnterKillArgs) {blocks : Nat}
    (enough : 3 ≤ blocks) :
    ∃ s, run (host results) killExample blocks 1 (start ctx) =
        .ok (.int (BitVec.ofInt 32 (TraceKills.killExample ctx).1), s) ∧
      s.mem.Holds (.param 0) (layout ctx) ∧ s.world = (TraceKills.killExample ctx).2 := by
  obtain ⟨v, s, ran, rfl, same, world⟩ := (@block1_returns results ctx).mono enough
  have code : (TraceKills.killExample ctx).1 = 0 := by
    rw [TraceKills.killExample]
    split <;> rfl
  rw [code]
  exact ⟨s, ran, same, world⟩

/-- `kill -9 4242`. -/
def killed : SyscallsEnterKillArgs := ⟨0, 62, 4242, 9⟩

theorem kill_refines_killed :
    3 ≤ 3 ∧ ∃ s, run (host ⟨0, 0, 0, 0⟩) killExample 3 1 (start killed) =
        .ok (.int (BitVec.ofInt 32 (TraceKills.killExample killed).1), s) ∧
      s.mem.Holds (.param 0) (layout killed) ∧ s.world = (TraceKills.killExample killed).2 :=
  ⟨by decide, kill_refines ⟨0, 0, 0, 0⟩ killed (by decide)⟩

end Compiled

end Xcnf.TraceKills
