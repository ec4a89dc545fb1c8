import Xcnf.Lib.Transition
import Xcnf.Flow.Consumer

/-!
# The consumer and the ticker at one table

Two goroutines share the flow table. The consumer runs `CalcLatency`: `Get` is one load,
`Insert` one store, and `Remove` a load followed by a deletion. The ticker goroutine runs
`Prune`: it reads the clock, and for each key that `Range` visits it loads the entry,
judges it and deletes the key; the callback returns `false` for a fresh entry, which ends
the `Range`. Each operation on the table is one step, and a run is any sequence of steps.
Which keys are visited, in which order and when `Range` has no more of them is left open;
no key is visited twice in one `Range`.

Entries carry a serial number, the count of insertions before theirs, and the system
keeps a history. Neither is part of the program; they only say which insertion an entry
in the table comes from.
-/

namespace Xcnf.Flow

structure Entry where
  timestamp : UInt64
  serial : Nat
  deriving DecidableEq

/-- Where the consumer is in `CalcLatency`. -/
inductive Consumer where
  | idle
  /-- `Get` has returned. -/
  | got (pkt : Packet) (proto : Proto) (found : Option Entry)
  /-- The latency from this entry is printed and `Remove` is called. -/
  | removing (hash : UInt64) (entry : Entry)
  /-- `Remove` has found the key, and deletes it next. -/
  | deleting (hash : UInt64) (entry : Entry)
  deriving DecidableEq

/-- Where the ticker goroutine is in `Prune`. -/
inductive Pruner where
  | idle
  | ranging (now : UInt64) (visited : List UInt64)
  /-- The callback has loaded a pair. -/
  | visiting (now : UInt64) (visited : List UInt64) (hash : UInt64) (entry : Entry)
  /-- The pair was judged stale, and its key is deleted next. -/
  | deleting (now : UInt64) (visited : List UInt64) (hash : UInt64) (entry : Entry)
  deriving DecidableEq

inductive Event where
  | inserted (hash : UInt64) (entry : Entry)
  | reported (entry : Entry) (r : Report)
  /-- `Remove` deleted a key, and this is what was stored under it. -/
  | removed (hash : UInt64) (gone : Option Entry)
  /-- `Prune` deleted the key of the pair it judged, while the consumer was at `during`. -/
  | pruned (hash : UInt64) (judged : Entry) (gone : Option Entry) (during : Consumer)
  deriving DecidableEq

/-- The latency printed at an event. -/
def Event.report? : Event → Option Report
  | .reported _ r => some r
  | _ => none

structure System where
  table : SyncMap UInt64 Entry
  /-- The serial number of the next insertion. -/
  next : Nat
  consumer : Consumer
  pruner : Pruner
  /-- Latest first. -/
  history : List Event

namespace System

def start : System where
  table := SyncMap.empty
  next := 0
  consumer := .idle
  pruner := .idle
  history := []

inductive Action where
  /-- `CalcLatency` is called, and `Get` runs if the protocol is known. -/
  | recv (pkt : Packet)
  /-- The next step of `CalcLatency`. -/
  | consume
  /-- `Prune` is called, and reads the clock. -/
  | clock (now : UInt64)
  /-- `Range` calls back for a key. -/
  | visit (hash : UInt64)
  | compare
  | delete
  | rangeEnd
  deriving DecidableEq

/-- The consumer's step after `Get`. -/
def consume (s : System) : Option System :=
  match s.consumer with
  | .idle => none
  | .got pkt proto none =>
    if pkt.syn ∨ proto = .udp then
      let entry := { timestamp := pkt.timestamp, serial := s.next }
      some { s with
        table := s.table.store pkt.hash entry
        next := s.next + 1
        consumer := .idle
        history := .inserted pkt.hash entry :: s.history }
    else
      some { s with consumer := .idle }
  | .got pkt proto (some entry) =>
    if pkt.ack ∨ proto = .udp then
      some { s with
        consumer := .removing pkt.hash entry
        history := .reported entry (report proto pkt entry.timestamp) :: s.history }
    else
      some { s with consumer := .idle }
  | .removing hash entry =>
    match s.table.load hash with
    | some _ => some { s with consumer := .deleting hash entry }
    | none => some { s with consumer := .idle }
  | .deleting hash _ =>
    some { s with
      table := s.table.delete hash
      consumer := .idle
      history := .removed hash (s.table.load hash) :: s.history }

def step (s : System) : Action → Option System
  | .recv pkt =>
    match s.consumer with
    | .idle =>
      match ipProtoNums pkt.protocol with
      | none => some s
      | some proto => some { s with consumer := .got pkt proto (s.table.load pkt.hash) }
    | _ => none
  | .consume => s.consume
  | .clock now =>
    match s.pruner with
    | .idle => some { s with pruner := .ranging now [] }
    | _ => none
  | .visit hash =>
    match s.pruner, s.table.load hash with
    | .ranging now visited, some entry =>
      if hash ∈ visited then none
      else some { s with pruner := .visiting now (hash :: visited) hash entry }
    | _, _ => none
  | .compare =>
    match s.pruner with
    | .visiting now visited hash entry =>
      if stale now entry.timestamp then
        some { s with pruner := .deleting now visited hash entry }
      else
        some { s with pruner := .idle }
    | _ => none
  | .delete =>
    match s.pruner with
    | .deleting now visited hash entry =>
      some { s with
        table := s.table.delete hash
        pruner := .ranging now visited
        history := .pruned hash entry (s.table.load hash) s.consumer :: s.history }
    | _ => none
  | .rangeEnd =>
    match s.pruner with
    | .ranging _ _ => some { s with pruner := .idle }
    | _ => none

/-! ## What a step can do -/

/-- The steps of the system, one constructor for each way through the two goroutines. -/
inductive Step (s : System) : Action → System → Prop where
  | unknown {pkt} (at_ : s.consumer = .idle) (protocol : ipProtoNums pkt.protocol = none) :
      Step s (.recv pkt) s
  | get {pkt proto} (at_ : s.consumer = .idle) (protocol : ipProtoNums pkt.protocol = some proto) :
      Step s (.recv pkt) { s with consumer := .got pkt proto (s.table.load pkt.hash) }
  | insert {pkt proto} (at_ : s.consumer = .got pkt proto none) (opens : pkt.syn ∨ proto = .udp) :
      Step s .consume
        { s with
          table := s.table.store pkt.hash { timestamp := pkt.timestamp, serial := s.next }
          next := s.next + 1
          consumer := .idle
          history := .inserted pkt.hash { timestamp := pkt.timestamp, serial := s.next } ::
            s.history }
  | ignore {pkt proto} (at_ : s.consumer = .got pkt proto none) :
      Step s .consume { s with consumer := .idle }
  | report {pkt proto entry} (at_ : s.consumer = .got pkt proto (some entry))
      (closes : pkt.ack ∨ proto = .udp) :
      Step s .consume
        { s with
          consumer := .removing pkt.hash entry
          history := .reported entry (report proto pkt entry.timestamp) :: s.history }
  | keep {pkt proto entry} (at_ : s.consumer = .got pkt proto (some entry)) :
      Step s .consume { s with consumer := .idle }
  | found {hash entry} (at_ : s.consumer = .removing hash entry) :
      Step s .consume { s with consumer := .deleting hash entry }
  | missing {hash entry} (at_ : s.consumer = .removing hash entry)
      (absent : s.table.load hash = none) :
      Step s .consume { s with consumer := .idle }
  | remove {hash entry} (at_ : s.consumer = .deleting hash entry) :
      Step s .consume
        { s with
          table := s.table.delete hash
          consumer := .idle
          history := .removed hash (s.table.load hash) :: s.history }
  | clock {now} (at_ : s.pruner = .idle) : Step s (.clock now) { s with pruner := .ranging now [] }
  | visit {now visited hash entry} (at_ : s.pruner = .ranging now visited)
      (present : s.table.load hash = some entry) :
      Step s (.visit hash) { s with pruner := .visiting now (hash :: visited) hash entry }
  | condemn {now visited hash entry} (at_ : s.pruner = .visiting now visited hash entry)
      (old : stale now entry.timestamp = true) :
      Step s .compare { s with pruner := .deleting now visited hash entry }
  | fresh {now visited hash entry} (at_ : s.pruner = .visiting now visited hash entry) :
      Step s .compare { s with pruner := .idle }
  | prune {now visited hash entry} (at_ : s.pruner = .deleting now visited hash entry) :
      Step s .delete
        { s with
          table := s.table.delete hash
          pruner := .ranging now visited
          history := .pruned hash entry (s.table.load hash) s.consumer :: s.history }
  | rangeEnd {now visited} (at_ : s.pruner = .ranging now visited) :
      Step s .rangeEnd { s with pruner := .idle }

theorem consume_sound {s t : System} (h : s.consume = some t) : Step s .consume t := by
  unfold consume at h
  split at h
  next => contradiction
  next pkt proto hat =>
      split at h
      next opens => exact Option.some.inj h ▸ .insert hat opens
      next => exact Option.some.inj h ▸ .ignore hat
  next pkt proto entry hat =>
      split at h
      next closes => exact Option.some.inj h ▸ .report hat closes
      next => exact Option.some.inj h ▸ .keep hat
  next hash entry hat =>
      split at h
      next => exact Option.some.inj h ▸ .found hat
      next absent => exact Option.some.inj h ▸ .missing hat absent
  next hash entry hat => exact Option.some.inj h ▸ .remove hat

theorem step_sound {s t : System} {a : Action} (h : s.step a = some t) : Step s a t := by
  cases a with
  | recv pkt =>
      simp only [step] at h
      split at h
      next hat =>
          split at h
          next hproto => exact Option.some.inj h ▸ .unknown hat hproto
          next proto hproto => exact Option.some.inj h ▸ .get hat hproto
      next => contradiction
  | consume => exact consume_sound h
  | clock now =>
      simp only [step] at h
      split at h
      next hat => exact Option.some.inj h ▸ .clock hat
      next => contradiction
  | visit hash =>
      simp only [step] at h
      split at h
      next now visited entry hat present =>
          split at h
          next => contradiction
          next => exact Option.some.inj h ▸ .visit hat present
      next => contradiction
  | compare =>
      simp only [step] at h
      split at h
      next now visited hash entry hat =>
          split at h
          next old => exact Option.some.inj h ▸ .condemn hat old
          next => exact Option.some.inj h ▸ .fresh hat
      next => contradiction
  | delete =>
      simp only [step] at h
      split at h
      next now visited hash entry hat => exact Option.some.inj h ▸ .prune hat
      next => contradiction
  | rangeEnd =>
      simp only [step] at h
      split at h
      next now visited hat => exact Option.some.inj h ▸ .rangeEnd hat
      next => contradiction

/-! ## The consumer undisturbed -/

/-- The entries show the timestamps of the table. -/
def Shows (entries : SyncMap UInt64 Entry) (table : FlowTable) : Prop :=
  ∀ k, table.load k = (entries.load k).map Entry.timestamp

theorem Shows.store {entries : SyncMap UInt64 Entry} {table : FlowTable}
    (shows : Shows entries table) (hash : UInt64) (entry : Entry) :
    Shows (entries.store hash entry) (table.insert hash entry.timestamp) := by
  intro k
  by_cases hk : k = hash
  · subst hk
    rw [FlowTable.insert, SyncMap.load_store_self, SyncMap.load_store_self]
    rfl
  · rw [FlowTable.insert, SyncMap.load_store_ne _ _ hk, SyncMap.load_store_ne _ _ hk]
    exact shows k

theorem Shows.delete {entries : SyncMap UInt64 Entry} {table : FlowTable}
    (shows : Shows entries table) (hash : UInt64) :
    Shows (entries.delete hash) (table.remove hash) := by
  rw [FlowTable.remove_eq_delete]
  intro k
  by_cases hk : k = hash
  · subst hk
    rw [SyncMap.load_delete_self, SyncMap.load_delete_self]
    rfl
  · rw [SyncMap.load_delete_ne _ hk, SyncMap.load_delete_ne _ hk]
    exact shows k

/-- The latencies printed so far, latest first. -/
def reports (s : System) : List Report := s.history.filterMap Event.report?

/-- With no step of the other goroutine in between, the steps of the consumer are
`calcLatency`: the same table and the same latency printed. -/
theorem run_calcLatency {s : System} {table : FlowTable} (idle : s.consumer = .idle)
    (shows : Shows s.table table) (pkt : Packet) :
    ∃ as t, (∀ a ∈ as, a = .consume) ∧
      Transition.run step s (.recv pkt :: as) = some t ∧
      t.consumer = .idle ∧ t.pruner = s.pruner ∧
      Shows t.table (calcLatency pkt table).2 ∧
      t.reports = (calcLatency pkt table).1.report?.toList ++ s.reports := by
  cases hproto : ipProtoNums pkt.protocol with
  | none =>
      rw [calcLatency_unknown hproto]
      refine ⟨[], s, by simp, ?_, idle, rfl, shows, rfl⟩
      simp only [Transition.run_single, step, idle, hproto]
  | some proto =>
      have hget : table.get pkt.hash = (s.table.load pkt.hash).map Entry.timestamp :=
        shows pkt.hash
      have called : step s (.recv pkt) =
          some { s with consumer := .got pkt proto (s.table.load pkt.hash) } := by
        simp only [step, idle, hproto]
      cases hload : s.table.load pkt.hash with
      | none =>
          rw [hload] at hget called
          rw [calcLatency_absent hproto hget]
          by_cases opens : pkt.syn ∨ proto = .udp
          · rw [if_pos opens]
            let entry : Entry := { timestamp := pkt.timestamp, serial := s.next }
            let t : System :=
              { s with
                table := s.table.store pkt.hash entry
                next := s.next + 1
                consumer := .idle
                history := .inserted pkt.hash entry :: s.history }
            refine ⟨[.consume], t, by simp, ?_, rfl, rfl, shows.store pkt.hash entry, rfl⟩
            · rw [Transition.run_cons, called, Option.bind_some, Transition.run_single]
              simp only [step, consume, if_pos opens]
              rfl
          · rw [if_neg opens]
            refine ⟨[.consume], { s with consumer := .idle }, by simp, ?_, rfl, rfl, shows, rfl⟩
            · rw [Transition.run_cons, called, Option.bind_some, Transition.run_single]
              simp only [step, consume, if_neg opens]
      | some entry =>
          rw [hload] at hget called
          rw [calcLatency_present hproto hget]
          by_cases closes : pkt.ack ∨ proto = .udp
          · rw [if_pos closes]
            let t : System :=
              { s with
                table := s.table.delete pkt.hash
                consumer := .idle
                history := .removed pkt.hash (some entry) ::
                  .reported entry (report proto pkt entry.timestamp) :: s.history }
            refine ⟨[.consume, .consume, .consume], t, by simp, ?_, rfl, rfl,
              shows.delete pkt.hash, rfl⟩
            · rw [Transition.run_cons, called, Option.bind_some]
              simp only [Transition.run_cons, step, consume, if_pos closes, Option.bind_some, hload,
                Transition.run_nil]
              rfl
          · rw [if_neg closes]
            refine ⟨[.consume], { s with consumer := .idle }, by simp, ?_, rfl, rfl, shows, rfl⟩
            · rw [Transition.run_cons, called, Option.bind_some, Transition.run_single]
              simp only [step, consume, if_neg closes]

end System

end Xcnf.Flow
