import Xcnf.Flow.Interleaving

/-!
# From the ring buffer to the table

Three goroutines of `Run`: the reader takes records from the ring buffer and sends them
on an unbuffered channel, the main loop selects between the channel and cancellation and
handles what it receives, and the ticker prunes the table. A run is any sequence of
their steps, with cancellation at any moment; when both are ready, `select` may take
either. The decoder is a parameter, so that the results hold for `UnmarshalBinary` and
for any other that may reject a record.

A run starts when `Run` has been set up. The ticker goroutine receives a tick in one step and
calls `Prune` in another one, so `Run` may stop the ticker and return in between.

`read` and `handed` record what the ring buffer returned and what the decoder was given.
A panic of the decoder ends the process.
-/

namespace Xcnf.Flow

abbrev Sample := GoSlice UInt8

/-- Where the reader goroutine is. -/
inductive Reader where
  | reading
  /-- A record was read and the send has not been received yet. -/
  | sending (sample : Sample)
  /-- `Read` failed and the goroutine has returned. -/
  | stopped

/-- Where the main loop of `Run` is. -/
inductive Main where
  | selecting
  /-- A sample was received, and `UnmarshalBinary` is called next. -/
  | handling (sample : Sample)
  /-- `CalcLatency` is running. -/
  | calculating
  | returned
  | crashed (panic : GoPanic)

structure Pipeline where
  reader : Reader
  main : Main
  cancelled : Bool
  /-- The ticker goroutine has received a tick, and calls `Prune` next. -/
  due : Bool
  /-- The table with `CalcLatency` and `Prune` at it. -/
  shared : System
  /-- Every record that `Read` has returned, in order. -/
  read : List Sample
  /-- Every sample that `UnmarshalBinary` was called with, in order. -/
  handed : List Sample

/-- A panic takes the other goroutines down with the main loop. -/
def Main.alive : Main → Bool
  | .crashed _ => false
  | _ => true

/-- The ticker sends ticks until `Run` stops it. -/
def Main.ticking : Main → Bool
  | .returned | .crashed _ => false
  | _ => true

/-- The steps of `Prune` that can happen. It is called when a tick is due; that `Run` has
returned holds up neither the call nor a `Prune` under way. -/
def Main.lets (main : Main) (due : Bool) : System.Action → Bool
  | .recv _ | .consume => false
  | .clock _ => main.alive && due
  | .visit _ | .compare | .delete | .rangeEnd => main.alive && !due

namespace Pipeline

def start : Pipeline where
  reader := .reading
  main := .selecting
  cancelled := false
  due := false
  shared := System.start
  read := []
  handed := []

inductive Action where
  /-- `reader.Read` returns a record. -/
  | read (sample : Sample)
  /-- `reader.Read` returns an error. -/
  | readError
  /-- The send meets the receiving case of `select`. -/
  | receive
  /-- `UnmarshalBinary` is called, and `CalcLatency` if it succeeds. -/
  | unmarshal
  /-- The next step of `CalcLatency`, or its return. -/
  | calculate
  /-- The ticker goroutine receives a tick. -/
  | fire
  /-- A step of `Prune`. -/
  | tick (a : System.Action)
  | cancel
  /-- The case `ctx.Done()`: the ticker is stopped and `Run` returns. -/
  | done

variable (decode : Sample → Go (Option Packet))

def step (s : Pipeline) : Action → Option Pipeline
  | .read sample =>
    match s.reader with
    | .reading =>
      if s.main.alive then
        some { s with reader := .sending sample, read := s.read ++ [sample] }
      else none
    | _ => none
  | .readError =>
    match s.reader with
    | .reading => if s.main.alive then some { s with reader := .stopped } else none
    | _ => none
  | .receive =>
    match s.main, s.reader with
    | .selecting, .sending sample =>
      some { s with reader := .reading, main := .handling sample }
    | _, _ => none
  | .unmarshal =>
    match s.main with
    | .handling sample =>
      match decode sample with
      | .error panic =>
        some { s with main := .crashed panic, handed := s.handed ++ [sample] }
      | .ok none => some { s with main := .selecting, handed := s.handed ++ [sample] }
      | .ok (some pkt) =>
        match s.shared.step (.recv pkt) with
        | some shared =>
          some { s with
            main := .calculating
            shared := shared
            handed := s.handed ++ [sample] }
        | none => none
    | _ => none
  | .calculate =>
    match s.main with
    | .calculating =>
      match s.shared.step .consume with
      | some shared => some { s with shared := shared }
      | none => some { s with main := .selecting }
    | _ => none
  | .fire =>
    match s.shared.pruner with
    | .idle => if s.main.ticking && !s.due then some { s with due := true } else none
    | _ => none
  | .tick a =>
    if s.main.lets s.due a then
      match s.shared.step a with
      | some shared => some { s with due := false, shared := shared }
      | none => none
    else none
  | .cancel => some { s with cancelled := true }
  | .done =>
    match s.main with
    | .selecting => if s.cancelled then some { s with main := .returned } else none
    | _ => none

/-- What a step can do. -/
inductive Step (s : Pipeline) : Action → Pipeline → Prop where
  | read {sample} (at_ : s.reader = .reading) (alive : s.main.alive = true) :
      Step s (.read sample) { s with reader := .sending sample, read := s.read ++ [sample] }
  | readError (at_ : s.reader = .reading) (alive : s.main.alive = true) :
      Step s .readError { s with reader := .stopped }
  | receive {sample} (free : s.main = .selecting) (sent : s.reader = .sending sample) :
      Step s .receive { s with reader := .reading, main := .handling sample }
  | crash {sample panic} (at_ : s.main = .handling sample)
      (decoded : decode sample = .error panic) :
      Step s .unmarshal { s with main := .crashed panic, handed := s.handed ++ [sample] }
  | reject {sample} (at_ : s.main = .handling sample) (decoded : decode sample = .ok none) :
      Step s .unmarshal { s with main := .selecting, handed := s.handed ++ [sample] }
  | call {sample pkt shared} (at_ : s.main = .handling sample)
      (decoded : decode sample = .ok (some pkt)) (got : s.shared.step (.recv pkt) = some shared) :
      Step s .unmarshal
        { s with main := .calculating, shared := shared, handed := s.handed ++ [sample] }
  | calculate {shared} (at_ : s.main = .calculating) (next : s.shared.step .consume = some shared) :
      Step s .calculate { s with shared := shared }
  | returns (at_ : s.main = .calculating) (idle : s.shared.step .consume = none) :
      Step s .calculate { s with main := .selecting }
  | fire (at_ : s.shared.pruner = .idle) (ticking : s.main.ticking = true)
      (free : s.due = false) : Step s .fire { s with due := true }
  | tick {a shared} (lets : s.main.lets s.due a = true) (next : s.shared.step a = some shared) :
      Step s (.tick a) { s with due := false, shared := shared }
  | cancel : Step s .cancel { s with cancelled := true }
  | done (at_ : s.main = .selecting) (cancelled : s.cancelled = true) :
      Step s .done { s with main := .returned }

variable {decode} {s t : Pipeline}

theorem step_sound {a : Action} (h : step decode s a = some t) : Step decode s a t := by
  cases a with
  | read sample =>
      simp only [step] at h
      split at h
      next hat =>
          split at h
          next alive => exact Option.some.inj h ▸ .read hat alive
          next => contradiction
      next => contradiction
  | readError =>
      simp only [step] at h
      split at h
      next hat =>
          split at h
          next alive => exact Option.some.inj h ▸ .readError hat alive
          next => contradiction
      next => contradiction
  | receive =>
      simp only [step] at h
      split at h
      next sample free sent => exact Option.some.inj h ▸ .receive free sent
      next => contradiction
  | unmarshal =>
      simp only [step] at h
      split at h
      next sample hat =>
          split at h
          next panic decoded => exact Option.some.inj h ▸ .crash hat decoded
          next decoded => exact Option.some.inj h ▸ .reject hat decoded
          next pkt decoded =>
              split at h
              next shared got => exact Option.some.inj h ▸ .call hat decoded got
              next => contradiction
      next => contradiction
  | calculate =>
      simp only [step] at h
      split at h
      next hat =>
          split at h
          next shared next => exact Option.some.inj h ▸ .calculate hat next
          next idle => exact Option.some.inj h ▸ .returns hat idle
      next => contradiction
  | fire =>
      simp only [step] at h
      split at h
      next hat =>
          split at h
          next both =>
              obtain ⟨ticking, free⟩ := Bool.and_eq_true_iff.mp both
              exact Option.some.inj h ▸ .fire hat ticking (Bool.not_eq_eq_eq_not.mp free)
          next => contradiction
      next => contradiction
  | tick a =>
      simp only [step] at h
      split at h
      next lets =>
          split at h
          next shared next => exact Option.some.inj h ▸ .tick lets next
          next => contradiction
      next => contradiction
  | cancel => exact Option.some.inj h ▸ .cancel
  | done =>
      simp only [step] at h
      split at h
      next hat =>
          split at h
          next cancelled => exact Option.some.inj h ▸ .done hat cancelled
          next => contradiction
      next => contradiction

/-! ## Nothing is lost, duplicated or reordered -/

/-- The sample that the main loop has received and not yet handed on. -/
def Main.pending : Main → List Sample
  | .handling sample => [sample]
  | _ => []

/-- The record that the reader has read and not yet sent. -/
def Reader.pending : Reader → List Sample
  | .sending sample => [sample]
  | _ => []

/-- Every record read is handed on, or in the hands of one of the two goroutines. -/
def Conserves (s : Pipeline) : Prop :=
  s.read = s.handed ++ (Main.pending s.main ++ Reader.pending s.reader)

theorem Conserves.step {a : Action} (inv : s.Conserves) (h : step decode s a = some t) :
    t.Conserves := by
  obtain ⟨reader, main, cancelled, due, shared, read, handed⟩ := s
  change read = handed ++ (Main.pending main ++ Reader.pending reader) at inv
  cases step_sound h with
  | read hat =>
      obtain rfl : reader = .reading := hat
      change read ++ [_] = handed ++ (Main.pending main ++ [_])
      rw [inv]
      simp [Reader.pending]
  | readError hat =>
      obtain rfl : reader = .reading := hat
      exact inv
  | receive free sent =>
      obtain rfl : main = .selecting := free
      obtain rfl : reader = .sending _ := sent
      exact inv
  | crash hat | reject hat | call hat =>
      obtain rfl : main = .handling _ := hat
      change read = (handed ++ [_]) ++ ([] ++ Reader.pending reader)
      rw [inv]
      simp [Main.pending]
  | calculate | fire | tick | cancel => exact inv
  | returns hat =>
      obtain rfl : main = .calculating := hat
      exact inv
  | done hat =>
      obtain rfl : main = .selecting := hat
      exact inv

/-! ## Rejected records leave no trace -/

/-- The decoder returns `false`. -/
def rejects (decode : Sample → Go (Option Packet)) (sample : Sample) : Bool :=
  match decode sample with
  | .ok none => true
  | _ => false

variable (decode)

/-- A reader with a rejected record might as well not have read it. -/
def eraseReader : Reader → Reader
  | .sending sample => if rejects decode sample then .reading else .sending sample
  | r => r

/-- A main loop with a rejected record might as well not have received it. -/
def eraseMain : Main → Main
  | .handling sample => if rejects decode sample then .selecting else .handling sample
  | m => m

/-- The state without the records that the decoder rejects. The table, what `CalcLatency`
and `Prune` are doing at it, and cancellation stay as they are. -/
def erase (s : Pipeline) : Pipeline where
  reader := eraseReader decode s.reader
  main := eraseMain decode s.main
  cancelled := s.cancelled
  due := s.due
  shared := s.shared
  read := s.read.filter fun sample => !rejects decode sample
  handed := s.handed.filter fun sample => !rejects decode sample

variable {decode}

/-- A sample with one datagram's event. -/
def earlySample : Sample := .ofList (earlyRecord.layout .little).bytes

/-- One event is handled, and `Run` is cancelled when the next has been read. -/
def cancelledBetween : List Action :=
  [.read earlySample, .receive, .unmarshal, .calculate, .calculate, .read earlySample, .cancel,
    .done]

end Pipeline

end Xcnf.Flow
