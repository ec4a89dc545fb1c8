import Xcnf.Flow.Matching

/-!
# Calls as one step

`CalcLatency` takes up to four steps at the table, and `Prune` deletes entries between
them. Here the same two goroutines run with each call of `CalcLatency` done in one step.
Every run of the interleaved system goes along with such a run: the same packets, the same
steps of `Prune`, and whenever no call is under way the same table, the same latencies
printed and the same place in `Prune` (`System.run_serializes`).

A call takes effect in its last step at the table, with one exception: when `Prune` deletes
the entry that the call has found, it takes effect right before this deletion, which then
finds nothing to delete. `Standing` says which latencies the run of whole calls is ahead by,
and which packet it has yet to see.
-/

namespace Xcnf.Flow

/-- The steps of `Prune`. -/
inductive Tick where
  | clock (now : UInt64)
  | visit (hash : UInt64)
  | compare
  | delete
  | rangeEnd
  deriving DecidableEq

/-- Where the ticker goroutine is in `Prune`. -/
inductive Sweep where
  | idle
  | ranging (now : UInt64) (visited : List UInt64)
  | visiting (now : UInt64) (visited : List UInt64) (hash timestamp : UInt64)
  | deleting (now : UInt64) (visited : List UInt64) (hash : UInt64)
  deriving DecidableEq

/-- A step of `Prune` on the table. -/
def Sweep.step (table : FlowTable) : Sweep → Tick → Option (FlowTable × Sweep)
  | .idle, .clock now => some (table, .ranging now [])
  | .ranging now visited, .visit hash =>
    match table.get hash with
    | some timestamp =>
      if hash ∈ visited then none
      else some (table, .visiting now (hash :: visited) hash timestamp)
    | none => none
  | .visiting now visited hash timestamp, .compare =>
    if stale now timestamp then some (table, .deleting now visited hash) else some (table, .idle)
  | .deleting now visited hash, .delete => some (table.delete hash, .ranging now visited)
  | .ranging _ _, .rangeEnd => some (table, .idle)
  | _, _ => none

/-- The two goroutines, with calls of `CalcLatency` that nothing interrupts. -/
structure Uninterrupted where
  table : FlowTable
  /-- The latencies printed so far, latest first. -/
  reports : List Report
  sweep : Sweep

namespace Uninterrupted

def start : Uninterrupted where
  table := SyncMap.empty
  reports := []
  sweep := .idle

inductive Action where
  | call (pkt : Packet)
  | tick (a : Tick)
  deriving DecidableEq

def Action.packet? : Action → Option Packet
  | .call pkt => some pkt
  | .tick _ => none

def Action.tick? : Action → Option Tick
  | .call _ => none
  | .tick a => some a

/-- `CalcLatency` from its call to its return. -/
def call (u : Uninterrupted) (pkt : Packet) : Uninterrupted :=
  { u with
    table := (calcLatency pkt u.table).2
    reports := (calcLatency pkt u.table).1.report?.toList ++ u.reports }

def step (u : Uninterrupted) : Action → Option Uninterrupted
  | .call pkt => some (u.call pkt)
  | .tick a =>
    (u.sweep.step u.table a).map fun next => { u with table := next.1, sweep := next.2 }

variable {u : Uninterrupted} {pkt : Packet} {proto : Proto}

theorem call_unknown (protocol : ipProtoNums pkt.protocol = none) : u.call pkt = u := by
  rw [call, calcLatency_unknown protocol]
  rfl

theorem call_absent (protocol : ipProtoNums pkt.protocol = some proto)
    (absent : u.table.get pkt.hash = none) :
    u.call pkt =
      if pkt.syn ∨ proto = .udp then
        { u with table := u.table.insert pkt.hash pkt.timestamp }
      else u := by
  rw [call, calcLatency_absent protocol absent]
  split <;> rfl

theorem call_present (protocol : ipProtoNums pkt.protocol = some proto) {timestamp : UInt64}
    (present : u.table.get pkt.hash = some timestamp) :
    u.call pkt =
      if pkt.ack ∨ proto = .udp then
        { u with
          table := u.table.remove pkt.hash
          reports := report proto pkt timestamp :: u.reports }
      else u := by
  rw [call, calcLatency_present protocol present]
  split <;> rfl

theorem call_reports (protocol : ipProtoNums pkt.protocol = some proto) {timestamp : UInt64}
    (present : u.table.get pkt.hash = some timestamp) :
    (u.call pkt).reports =
      if pkt.ack ∨ proto = .udp then report proto pkt timestamp :: u.reports else u.reports := by
  rw [call_present protocol present]
  split <;> rfl

/-- The packets that `CalcLatency` is called with. -/
def called (as : List Action) : List Packet := as.filterMap Action.packet?

theorem called_append (as bs : List Action) : called (as ++ bs) = called as ++ called bs :=
  List.filterMap_append

/-- The steps of `Prune`. -/
def ticks (as : List Action) : List Tick := as.filterMap Action.tick?

end Uninterrupted

/-! ## The interleaved system seen without its serial numbers -/

def Pruner.sweep : Pruner → Sweep
  | .idle => .idle
  | .ranging now visited => .ranging now visited
  | .visiting now visited hash entry => .visiting now visited hash entry.timestamp
  | .deleting now visited hash _ => .deleting now visited hash

namespace System

def Action.tick? : Action → Option Tick
  | .recv _ | .consume => none
  | .clock now => some (.clock now)
  | .visit hash => some (.visit hash)
  | .compare => some .compare
  | .delete => some .delete
  | .rangeEnd => some .rangeEnd

/-- The two systems show the same. -/
structure Agrees (s : System) (u : Uninterrupted) : Prop where
  table : Shows s.table u.table
  reports : u.reports = s.reports
  sweep : u.sweep = s.pruner.sweep

/-- With the consumer where it is, the packet that the run of whole calls has yet to see and
the latencies `rs` that it has printed. -/
inductive Standing (table : SyncMap UInt64 Entry) (printed rs : List Report) :
    Consumer → Option Packet → Prop where
  | idle (same : rs = printed) : Standing table printed rs .idle none
  | opening {pkt proto} (protocol : ipProtoNums pkt.protocol = some proto)
      (absent : table.load pkt.hash = none) (same : rs = printed) :
      Standing table printed rs (.got pkt proto none) (some pkt)
  | got {pkt proto entry} (protocol : ipProtoNums pkt.protocol = some proto)
      (present : table.load pkt.hash = some entry) (same : rs = printed) :
      Standing table printed rs (.got pkt proto (some entry)) (some pkt)
  /-- `Prune` has deleted the entry that `Get` returned. -/
  | overtaken {pkt proto entry} (absent : table.load pkt.hash = none)
      (ahead : rs = if pkt.ack ∨ proto = .udp then
        report proto pkt entry.timestamp :: printed else printed) :
      Standing table printed rs (.got pkt proto (some entry)) none
  | removing {pkt proto entry} (protocol : ipProtoNums pkt.protocol = some proto)
      (closes : pkt.ack ∨ proto = .udp) (present : table.load pkt.hash = some entry)
      (behind : printed = report proto pkt entry.timestamp :: rs) :
      Standing table printed rs (.removing pkt.hash entry) (some pkt)
  | removingNone {hash entry} (absent : table.load hash = none) (same : rs = printed) :
      Standing table printed rs (.removing hash entry) none
  | deleting {pkt proto entry} (protocol : ipProtoNums pkt.protocol = some proto)
      (closes : pkt.ack ∨ proto = .udp) (present : table.load pkt.hash = some entry)
      (behind : printed = report proto pkt entry.timestamp :: rs) :
      Standing table printed rs (.deleting pkt.hash entry) (some pkt)
  | deletingNone {hash entry} (absent : table.load hash = none) (same : rs = printed) :
      Standing table printed rs (.deleting hash entry) none

/-- The steps of `Prune`. -/
def ticks (as : List Action) : List Tick := as.filterMap Action.tick?

theorem ticks_snoc (as : List Action) (a : Action) :
    ticks (as ++ [a]) = ticks as ++ a.tick?.toList :=
  Transition.filterMap_snoc Action.tick? as a

theorem Shows.get {entries : SyncMap UInt64 Entry} {table : FlowTable} {hash : UInt64}
    {found : Option Entry} (shows : Shows entries table) (load : entries.load hash = found) :
    table.get hash = found.map Entry.timestamp :=
  (shows hash).trans (congrArg _ load)

/-- What is stored under the deleted key does not matter. -/
theorem Shows.delete_at {entries : SyncMap UInt64 Entry} {table table' : FlowTable}
    {hash : UInt64} (shows : Shows entries table)
    (same : ∀ {k}, k ≠ hash → table'.get k = table.get k) :
    Shows (entries.delete hash) (table'.delete hash) := by
  intro k
  by_cases hk : k = hash
  · rw [hk, SyncMap.load_delete_self, SyncMap.load_delete_self]
    rfl
  · rw [SyncMap.load_delete_ne _ hk, SyncMap.load_delete_ne _ hk]
    exact (same hk).trans (shows k)

/-- How the two systems stand, with the packet that only the interleaved one has seen. -/
structure Facing (waiting : Option Packet) (s : System) (u : Uninterrupted) : Prop where
  table : Shows s.table u.table
  sweep : u.sweep = s.pruner.sweep
  standing : Standing s.table s.reports u.reports s.consumer waiting

/-- A step goes along with these steps of the run of whole calls. -/
def Matched (waiting : Option Packet) (u : Uninterrupted) (a : Action) (t : System) : Prop :=
  ∃ bs v waiting', Transition.run Uninterrupted.step u bs = some v ∧ Facing waiting' t v ∧
    waiting.toList ++ a.packet?.toList = Uninterrupted.called bs ++ waiting'.toList ∧
    Uninterrupted.ticks bs = a.tick?.toList

section

variable {s t : System} {u : Uninterrupted} {waiting : Option Packet}

/-- The run of whole calls waits. -/
theorem Matched.waits {a : Action} {waiting' : Option Packet} (facing : Facing waiting' t u)
    (packets : waiting.toList ++ a.packet?.toList = waiting'.toList) (tick : a.tick? = none) :
    Matched waiting u a t :=
  ⟨[], u, waiting', rfl, facing, packets, by rw [tick]; rfl⟩

/-- The call takes effect. -/
theorem Matched.calls {a : Action} {pkt : Packet} {v : Uninterrupted} (effect : u.call pkt = v)
    (facing : Facing none t v) (packets : waiting.toList ++ a.packet?.toList = [pkt])
    (tick : a.tick? = none) : Matched waiting u a t :=
  ⟨[.call pkt], v, none, congrArg some effect, facing, packets, by rw [tick]; rfl⟩

/-- The tick is taken. -/
theorem Matched.ticks {a : Action} {k : Tick} {table : FlowTable}
    (stepped : u.sweep.step u.table k = some (table, t.pruner.sweep))
    (shows : Shows t.table table)
    (standing : Standing t.table t.reports u.reports t.consumer waiting)
    (packet : a.packet? = none) (tick : a.tick? = some k) : Matched waiting u a t := by
  refine ⟨[.tick k], { u with table := table, sweep := t.pruner.sweep }, waiting, ?_,
    ⟨shows, rfl, standing⟩, ?_, by rw [tick]; rfl⟩
  · rw [Transition.run_single, Uninterrupted.step, stepped]
    rfl
  · rw [packet]
    exact List.append_nil _

/-- `CalcLatency` is called. -/
theorem Facing.recv {pkt : Packet} (facing : Facing waiting s u)
    (h : s.step (.recv pkt) = some t) : Matched waiting u (.recv pkt) t := by
  obtain ⟨shows, sweep, standing⟩ := facing
  cases step_sound h with
  | unknown idle protocol =>
      have effect : u.call pkt = u := Uninterrupted.call_unknown protocol
      rw [idle] at standing
      cases standing with
      | idle same => exact .calls effect ⟨shows, sweep, by rw [idle]; exact .idle same⟩ rfl rfl
  | get idle protocol =>
      rw [idle] at standing
      cases standing with
      | idle same =>
          cases found : s.table.load pkt.hash with
          | none => exact .waits ⟨shows, sweep, .opening protocol found same⟩ rfl rfl
          | some entry => exact .waits ⟨shows, sweep, .got protocol found same⟩ rfl rfl

/-- `Get` has found nothing: the call takes effect now. -/
theorem Facing.consume_absent {pkt : Packet} {proto : Proto} (facing : Facing waiting s u)
    (at_ : s.consumer = .got pkt proto none) (h : s.step .consume = some t) :
    Matched waiting u .consume t := by
  obtain ⟨shows, sweep, standing⟩ := facing
  simp only [step, System.consume, at_] at h
  rw [at_] at standing
  cases standing with
  | opening protocol absent same =>
      have effect := Uninterrupted.call_absent protocol (shows.get absent)
      split at h
      next opens =>
          rw [if_pos opens] at effect
          obtain rfl := Option.some.inj h
          exact .calls effect ⟨shows.store _ _, sweep, .idle same⟩ rfl rfl
      next silent =>
          rw [if_neg silent] at effect
          obtain rfl := Option.some.inj h
          exact .calls effect ⟨shows, sweep, .idle same⟩ rfl rfl

/-- `Get` has found an entry: a call that does not close the flow takes effect now. -/
theorem Facing.consume_found {pkt : Packet} {proto : Proto} {entry : Entry}
    (facing : Facing waiting s u) (at_ : s.consumer = .got pkt proto (some entry))
    (h : s.step .consume = some t) : Matched waiting u .consume t := by
  obtain ⟨shows, sweep, standing⟩ := facing
  simp only [step, System.consume, at_] at h
  rw [at_] at standing
  cases standing with
  | got protocol present same =>
      have effect := Uninterrupted.call_present protocol (shows.get present)
      split at h
      next closes =>
          obtain rfl := Option.some.inj h
          exact .waits ⟨shows, sweep, .removing protocol closes present (same ▸ rfl)⟩ rfl rfl
      next silent =>
          rw [if_neg silent] at effect
          obtain rfl := Option.some.inj h
          exact .calls effect ⟨shows, sweep, .idle same⟩ rfl rfl
  | overtaken absent ahead =>
      split at h
      next closes =>
          rw [if_pos closes] at ahead
          obtain rfl := Option.some.inj h
          exact .waits ⟨shows, sweep, .removingNone absent ahead⟩ rfl rfl
      next silent =>
          rw [if_neg silent] at ahead
          obtain rfl := Option.some.inj h
          exact .waits ⟨shows, sweep, .idle ahead⟩ rfl rfl

/-- `Remove` looks for the key. -/
theorem Facing.consume_removing {hash : UInt64} {entry : Entry} (facing : Facing waiting s u)
    (at_ : s.consumer = .removing hash entry) (h : s.step .consume = some t) :
    Matched waiting u .consume t := by
  obtain ⟨shows, sweep, standing⟩ := facing
  rw [at_] at standing
  cases standing with
  | removing protocol closes present behind =>
      simp only [step, System.consume, at_, present] at h
      obtain rfl := Option.some.inj h
      exact .waits ⟨shows, sweep, .deleting protocol closes present behind⟩ rfl rfl
  | removingNone absent same =>
      simp only [step, System.consume, at_, absent] at h
      obtain rfl := Option.some.inj h
      exact .waits ⟨shows, sweep, .idle same⟩ rfl rfl

/-- `Remove` deletes the key: the call takes effect now, if `Prune` was not faster. -/
theorem Facing.consume_deleting {hash : UInt64} {entry : Entry} (facing : Facing waiting s u)
    (at_ : s.consumer = .deleting hash entry) (h : s.step .consume = some t) :
    Matched waiting u .consume t := by
  obtain ⟨shows, sweep, standing⟩ := facing
  simp only [step, System.consume, at_] at h
  obtain rfl := Option.some.inj h
  rw [at_] at standing
  cases standing with
  | deleting protocol closes present behind =>
      have effect := Uninterrupted.call_present protocol (shows.get present)
      rw [if_pos closes] at effect
      exact .calls effect ⟨shows.delete _, sweep, .idle behind.symm⟩ rfl rfl
  | deletingNone absent same =>
      refine .waits ⟨?_, sweep, .idle same⟩ rfl rfl
      show Shows (s.table.delete hash) u.table
      rwa [SyncMap.delete_of_absent absent]

/-- The next step of `CalcLatency`. -/
theorem Facing.consume (facing : Facing waiting s u) (h : s.step .consume = some t) :
    Matched waiting u .consume t := by
  cases at_ : s.consumer with
  | idle =>
      simp only [step, System.consume, at_] at h
      contradiction
  | got pkt proto found =>
      cases found with
      | none => exact facing.consume_absent at_ h
      | some entry => exact facing.consume_found at_ h
  | removing hash entry => exact facing.consume_removing at_ h
  | deleting hash entry => exact facing.consume_deleting at_ h

/-- The steps of `Prune` that leave the table alone. -/
theorem Facing.look (facing : Facing waiting s u) {a : Action} {k : Tick}
    (tick : a.tick? = some k) (looks : a ≠ .delete) (h : s.step a = some t) :
    Matched waiting u a t := by
  obtain ⟨shows, sweep, standing⟩ := facing
  cases a with
  | recv | consume => contradiction
  | delete => exact absurd rfl looks
  | clock now =>
      obtain rfl := Option.some.inj tick
      cases step_sound h with
      | clock at_ => exact .ticks (by rw [sweep, at_]; rfl) shows standing rfl rfl
  | visit hash =>
      obtain rfl := Option.some.inj tick
      simp only [step] at h
      split at h
      next now visited entry at_ present =>
          have get := shows.get present
          split at h
          next => contradiction
          next fresh =>
              obtain rfl := Option.some.inj h
              refine .ticks ?_ shows standing rfl rfl
              simp only [sweep, at_, Pruner.sweep, Sweep.step, get, Option.map_some, if_neg fresh]
      next => contradiction
  | compare =>
      obtain rfl := Option.some.inj tick
      simp only [step] at h
      split at h
      next now visited hash entry at_ =>
          split at h
          next old =>
              obtain rfl := Option.some.inj h
              refine .ticks ?_ shows standing rfl rfl
              simp only [sweep, at_, Pruner.sweep, Sweep.step, if_pos old]
          next young =>
              obtain rfl := Option.some.inj h
              refine .ticks ?_ shows standing rfl rfl
              simp only [sweep, at_, Pruner.sweep, Sweep.step, if_neg young]
      next => contradiction
  | rangeEnd =>
      obtain rfl := Option.some.inj tick
      cases step_sound h with
      | rangeEnd at_ => exact .ticks (by rw [sweep, at_]; rfl) shows standing rfl rfl

/-- A key is deleted: either nothing is different for the call, or it has found this key, and
it is the moment for it to take effect. -/
theorem Standing.delete {table : SyncMap UInt64 Entry} {printed rs : List Report}
    {consumer : Consumer} (standing : Standing table printed rs consumer waiting)
    (hash : UInt64) :
    Standing (table.delete hash) printed rs consumer waiting ∨
      ∃ pkt proto entry, waiting = some pkt ∧ pkt.hash = hash ∧
        ipProtoNums pkt.protocol = some proto ∧ table.load pkt.hash = some entry ∧
        Standing (table.delete hash) printed
          (if pkt.ack ∨ proto = .udp then report proto pkt entry.timestamp :: rs else rs)
          consumer none := by
  have gone {k : UInt64} (absent : table.load k = none) : (table.delete hash).load k = none := by
    by_contra present
    obtain ⟨entry, found⟩ := Option.ne_none_iff_exists'.mp present
    rw [SyncMap.load_of_load_delete found] at absent
    contradiction
  cases standing with
  | idle same => exact .inl (.idle same)
  | opening protocol absent same => exact .inl (.opening protocol (gone absent) same)
  | overtaken absent ahead => exact .inl (.overtaken (gone absent) ahead)
  | removingNone absent same => exact .inl (.removingNone (gone absent) same)
  | deletingNone absent same => exact .inl (.deletingNone (gone absent) same)
  | @got pkt proto entry protocol present same =>
      by_cases key : pkt.hash = hash
      · subst key
        exact .inr ⟨pkt, proto, entry, rfl, rfl, protocol, present,
          .overtaken (SyncMap.load_delete_self ..) (same ▸ rfl)⟩
      · exact .inl (.got protocol ((SyncMap.load_delete_ne _ key).trans present) same)
  | @removing pkt proto entry protocol closes present behind =>
      by_cases key : pkt.hash = hash
      · subst key
        refine .inr ⟨pkt, proto, entry, rfl, rfl, protocol, present, ?_⟩
        rw [if_pos closes]
        exact .removingNone (SyncMap.load_delete_self ..) behind.symm
      · exact .inl
          (.removing protocol closes ((SyncMap.load_delete_ne _ key).trans present) behind)
  | @deleting pkt proto entry protocol closes present behind =>
      by_cases key : pkt.hash = hash
      · subst key
        refine .inr ⟨pkt, proto, entry, rfl, rfl, protocol, present, ?_⟩
        rw [if_pos closes]
        exact .deletingNone (SyncMap.load_delete_self ..) behind.symm
      · exact .inl
          (.deleting protocol closes ((SyncMap.load_delete_ne _ key).trans present) behind)

/-- `Prune` deletes a key. -/
theorem Facing.delete (facing : Facing waiting s u) (h : s.step .delete = some t) :
    Matched waiting u .delete t := by
  obtain ⟨shows, sweep, standing⟩ := facing
  cases step_sound h with
  | @prune now visited hash entry at_ =>
      rw [at_] at sweep
      have deleted (v : Uninterrupted) (same : v.sweep = u.sweep) :
          v.sweep.step v.table .delete = some (v.table.delete hash, .ranging now visited) := by
        rw [same, sweep]
        rfl
      cases standing.delete hash with
      | inl standing =>
          refine .ticks (deleted u rfl) ?_ standing rfl rfl
          exact FlowTable.remove_eq_delete u.table hash ▸ shows.delete hash
      | inr helps =>
          obtain ⟨pkt, proto, found, rfl, rfl, protocol, present, standing⟩ := helps
          have printed := Uninterrupted.call_reports protocol (shows.get present)
          refine ⟨[.call pkt, .tick .delete],
            { u.call pkt with
              table := (u.call pkt).table.delete pkt.hash
              sweep := .ranging now visited },
            none, ?_, ⟨?_, rfl, printed ▸ standing⟩, rfl, rfl⟩
          · rw [Transition.run_cons, Uninterrupted.step, Option.bind_some, Transition.run_single,
              Uninterrupted.step, deleted (u.call pkt) rfl]
            rfl
          · exact shows.delete_at calcLatency_get_ne

theorem Facing.step {a : Action} (facing : Facing waiting s u) (h : s.step a = some t) :
    Matched waiting u a t := by
  cases a with
  | recv pkt => exact facing.recv h
  | consume => exact facing.consume h
  | delete => exact facing.delete h
  | clock | visit | compare | rangeEnd => exact facing.look rfl (by simp) h

end

/-! ## Whole runs -/

/-- The two systems after these actions of theirs. -/
def Abreast (done : List Action) (done' : List Uninterrupted.Action) (s : System)
    (u : Uninterrupted) : Prop :=
  ∃ waiting, Facing waiting s u ∧
    received done = Uninterrupted.called done' ++ waiting.toList ∧
    Uninterrupted.ticks done' = ticks done

theorem Abreast.start : Abreast [] [] start .start :=
  ⟨none, ⟨fun _ => rfl, rfl, .idle rfl⟩, rfl, rfl⟩

theorem Abreast.step {done : List Action} {done' : List Uninterrupted.Action} {s t : System}
    {a : Action} {u : Uninterrupted} (abreast : Abreast done done' s u)
    (h : s.step a = some t) :
    ∃ bs v, Transition.run Uninterrupted.step u bs = some v ∧
      Abreast (done ++ [a]) (done' ++ bs) t v := by
  obtain ⟨waiting, facing, packets, ticked⟩ := abreast
  obtain ⟨bs, v, waiting', run, facing', packets', ticked'⟩ := facing.step h
  refine ⟨bs, v, run, waiting', facing', ?_, ?_⟩
  · calc received (done ++ [a])
        = received done ++ a.packet?.toList := received_snoc done a
      _ = Uninterrupted.called done' ++ (waiting.toList ++ a.packet?.toList) := by
          rw [packets, List.append_assoc]
      _ = Uninterrupted.called (done' ++ bs) ++ waiting'.toList := by
          rw [packets', Uninterrupted.called_append, List.append_assoc]
  · calc Uninterrupted.ticks (done' ++ bs)
        = Uninterrupted.ticks done' ++ Uninterrupted.ticks bs := List.filterMap_append
      _ = ticks done ++ a.tick?.toList := by rw [ticked, ticked']
      _ = ticks (done ++ [a]) := (ticks_snoc done a).symm

/-- When no call is under way, both have made the same calls and show the same. -/
theorem Abreast.agrees {done : List Action} {done' : List Uninterrupted.Action} {s : System}
    {u : Uninterrupted} (abreast : Abreast done done' s u) (idle : s.consumer = .idle) :
    Uninterrupted.called done' = received done ∧ s.Agrees u := by
  obtain ⟨waiting, ⟨shows, sweep, standing⟩, packets, _⟩ := abreast
  rw [idle] at standing
  cases standing with
  | idle same => exact ⟨(packets.trans (List.append_nil _)).symm, shows, same, sweep⟩

/-- Both after a whole run. -/
theorem run_abreast {as : List Action} {t : System}
    (run : Transition.run step start as = some t) :
    ∃ bs u, Transition.run Uninterrupted.step Uninterrupted.start bs = some u ∧
      Abreast as bs t u := by
  obtain ⟨_, along⟩ := Transition.run_simulates_history Abreast.step Abreast.start run
  obtain ⟨bs, u, _, run', abreast⟩ := along as t List.prefix_rfl run
  exact ⟨bs, u, run', abreast⟩

/-- One run of whole calls goes along with these actions: whenever no call is under way, it
has made the same calls and taken the same steps of `Prune`, and shows the same. -/
def Serializes (as : List Action) : Prop :=
  ∃ bs : List Uninterrupted.Action, ∀ front s, front <+: as →
    Transition.run step start front = some s → s.consumer = .idle →
      ∃ front' u, front' <+: bs ∧
        Transition.run Uninterrupted.step Uninterrupted.start front' = some u ∧
        Uninterrupted.called front' = received front ∧
        Uninterrupted.ticks front' = ticks front ∧ s.Agrees u

/-- Whatever `Prune` does between the steps of `CalcLatency`, it could have done between its
calls. -/
theorem run_serializes {as : List Action} {t : System}
    (run : Transition.run step start as = some t) : Serializes as := by
  obtain ⟨bs, along⟩ := Transition.run_simulates_history Abreast.step Abreast.start run
  refine ⟨bs, fun front s before here idle => ?_⟩
  obtain ⟨front', u, inside, run', abreast⟩ := along front s before here
  obtain ⟨called, agrees⟩ := abreast.agrees idle
  obtain ⟨_, _, _, ticked⟩ := abreast
  exact ⟨front', u, inside, run', called, ticked, agrees⟩

theorem prunedWhileRead_serializes : Serializes prunedWhileRead :=
  run_serializes (t := (Transition.run step start prunedWhileRead).get (by decide +kernel))
    (Option.some_get _).symm

/-- The late answer takes effect right before the deletion that comes between its steps. -/
example :
    (Transition.run Uninterrupted.step Uninterrupted.start
      [.call (lanPacket (1, 40000) (2, 443) 6 true false 1000000000), .tick (.clock 20000000000),
        .tick (.visit lateAnswer.hash), .tick .compare, .call lateAnswer, .tick .delete]).map
          Uninterrupted.reports =
      (Transition.run step start prunedWhileRead).map reports := by
  decide +kernel

end System

end Xcnf.Flow
