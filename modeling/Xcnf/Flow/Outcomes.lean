import Xcnf.Flow.Prune

/-!
# How an entry ends

Every insertion is followed to its end: its entry is used for at most one latency, and it
leaves the table at most once, through `Remove` or through `Prune`. Both can happen to
one entry only when `Prune` deletes it while the consumer is at work on it, between the
`Get` that found it and the end of the `Remove` that follows its report.

The invariant is `Accounted`. Its steps are those that touch the table, the consumer or
the history; a step of `Prune` that does none of these keeps it as it is.
-/

namespace Xcnf.Flow

/-! ## Outcomes in the history -/

def Event.Reports (n : Nat) : Event → Bool
  | .reported entry _ => entry.serial = n
  | _ => false

/-- The event takes the entry with this serial number out of the table. -/
def Event.Takes (n : Nat) : Event → Bool
  | .removed _ (some gone) => gone.serial = n
  | .pruned _ _ (some gone) _ => gone.serial = n
  | _ => false

/-- How many latencies the entry is used for. -/
def timesReported (history : List Event) (n : Nat) : Nat := history.countP (Event.Reports n)

/-- How often the entry leaves the table. -/
def timesTaken (history : List Event) (n : Nat) : Nat := history.countP (Event.Takes n)

variable {history : List Event} {n : Nat}

@[simp] theorem timesReported_inserted {hash : UInt64} {entry : Entry} :
    timesReported (.inserted hash entry :: history) n = timesReported history n :=
  List.countP_cons_of_neg (by simp [Event.Reports])

@[simp] theorem timesReported_removed {hash : UInt64} {gone : Option Entry} :
    timesReported (.removed hash gone :: history) n = timesReported history n :=
  List.countP_cons_of_neg (by simp [Event.Reports])

@[simp] theorem timesReported_pruned {hash : UInt64} {judged : Entry} {gone : Option Entry}
    {during : Consumer} :
    timesReported (.pruned hash judged gone during :: history) n = timesReported history n :=
  List.countP_cons_of_neg (by simp [Event.Reports])

@[simp] theorem timesReported_reported {entry : Entry} {r : Report} :
    timesReported (.reported entry r :: history) n =
      timesReported history n + if entry.serial = n then 1 else 0 := by
  simp [timesReported, List.countP_cons, Event.Reports]

@[simp] theorem timesTaken_inserted {hash : UInt64} {entry : Entry} :
    timesTaken (.inserted hash entry :: history) n = timesTaken history n :=
  List.countP_cons_of_neg (by simp [Event.Takes])

@[simp] theorem timesTaken_reported {entry : Entry} {r : Report} :
    timesTaken (.reported entry r :: history) n = timesTaken history n :=
  List.countP_cons_of_neg (by simp [Event.Takes])

/-- An event that takes what was stored under a key. -/
theorem timesTaken_cons {ev : Event} {gone : Option Entry}
    (h : ∀ n, ev.Takes n = true ↔ ∃ entry, gone = some entry ∧ entry.serial = n) :
    timesTaken (ev :: history) n =
      timesTaken history n + if ∃ entry, gone = some entry ∧ entry.serial = n then 1 else 0 := by
  simp only [timesTaken, List.countP_cons, h]

theorem Event.takes_removed (hash : UInt64) (gone : Option Entry) (n : Nat) :
    (Event.removed hash gone).Takes n = true ↔ ∃ entry, gone = some entry ∧ entry.serial = n := by
  cases gone <;> simp [Event.Takes]

theorem Event.takes_pruned (hash : UInt64) (judged : Entry) (gone : Option Entry)
    (during : Consumer) (n : Nat) :
    (Event.pruned hash judged gone during).Takes n = true ↔
      ∃ entry, gone = some entry ∧ entry.serial = n := by
  cases gone <;> simp [Event.Takes]

/-! ## The consumer's entry -/

namespace Consumer

/-- The consumer has this entry from its `Get`, and is not done with it. -/
def Handles (n : Nat) : Consumer → Prop
  | .got _ _ (some entry) | .removing _ entry | .deleting _ entry => entry.serial = n
  | _ => False

/-- The consumer has reported the entry, and `Remove` is not over. -/
def Removes (n : Nat) : Consumer → Prop
  | .removing _ entry | .deleting _ entry => entry.serial = n
  | _ => False

theorem Removes.handles {c : Consumer} (h : c.Removes n) : c.Handles n := by
  cases c with
  | idle | got => exact h.elim
  | removing | deleting => exact h

end Consumer

/-- The entry is under its key or gone. -/
structure Kept (table : SyncMap UInt64 Entry) (hash : UInt64) (entry : Entry) : Prop where
  here : ∀ e, table.load hash = some e → e = entry
  only : ∀ k e, table.load k = some e → e.serial = entry.serial → k = hash

theorem Kept.delete {table : SyncMap UInt64 Entry} {hash : UInt64} {entry : Entry}
    (kept : Kept table hash entry) (k : UInt64) : Kept (table.delete k) hash entry where
  here := fun e h => kept.here e (SyncMap.load_of_load_delete h)
  only := fun k e h => kept.only k e (SyncMap.load_of_load_delete h)

/-- A kept entry that is in the table is under its key. -/
theorem Kept.load_eq {table : SyncMap UInt64 Entry} {hash : UInt64} {entry : Entry}
    (kept : Kept table hash entry) (h : table.Holds Entry.serial entry.serial) :
    table.load hash = some entry := by
  obtain ⟨k, e, hload, same⟩ := h
  obtain rfl := kept.only k e hload same
  rw [hload, kept.here e hload]

/-- What the consumer knows about the entry it handles: it was stored, nothing else has
been stored under its key since, and it is reported as soon as `Remove` is called. -/
def Consumer.Consistent (table : SyncMap UInt64 Entry) (next : Nat) (history : List Event) :
    Consumer → Prop
  | .idle => True
  | .got pkt _ none => table.load pkt.hash = none
  | .got pkt _ (some entry) =>
    entry.serial < next ∧ Kept table pkt.hash entry ∧ timesReported history entry.serial = 0
  | .removing hash entry | .deleting hash entry =>
    Kept table hash entry ∧ timesReported history entry.serial = 1

/-- A deletion under any key leaves what the consumer knows true. -/
theorem Consumer.Consistent.delete {table : SyncMap UInt64 Entry} {next : Nat} {c : Consumer}
    {ev : Event} (h : c.Consistent table next history) (k : UInt64)
    (quiet : ∀ n, timesReported (ev :: history) n = timesReported history n) :
    c.Consistent (table.delete k) next (ev :: history) := by
  cases c with
  | idle => trivial
  | got pkt proto found =>
      cases found with
      | none =>
          cases hload : (table.delete k).load pkt.hash with
          | none => exact hload
          | some e => exact absurd ((SyncMap.load_of_load_delete hload).symm.trans h) (by simp)
      | some entry => exact ⟨h.1, h.2.1.delete k, (quiet _).trans h.2.2⟩
  | removing hash entry => exact ⟨h.1.delete k, (quiet _).trans h.2⟩
  | deleting hash entry => exact ⟨h.1.delete k, (quiet _).trans h.2⟩

/-! ## The table and what has left it -/

/-- Every insertion so far is in the table or was taken out of it once. -/
structure Booked (table : SyncMap UInt64 Entry) (next : Nat) (history : List Event) : Prop where
  distinct : table.TagsDistinct Entry.serial
  held : ∀ n, table.Holds Entry.serial n → n < next ∧ timesTaken history n = 0
  gone : ∀ n, ¬ table.Holds Entry.serial n → timesTaken history n = if n < next then 1 else 0

variable {table : SyncMap UInt64 Entry} {next : Nat}

theorem Booked.start : Booked SyncMap.empty 0 [] where
  distinct := SyncMap.tagsDistinct_empty
  held := fun n h => absurd h (SyncMap.not_holds_empty n)
  gone := fun _ _ => rfl

theorem Booked.not_holds_next (booked : Booked table next history) :
    ¬ table.Holds Entry.serial next :=
  fun h => Nat.lt_irrefl next (booked.held next h).1

theorem Booked.insert (booked : Booked table next history) {hash : UInt64}
    (free : table.load hash = none) (ts : UInt64) :
    Booked (table.store hash { timestamp := ts, serial := next }) (next + 1)
      (.inserted hash { timestamp := ts, serial := next } :: history) where
  distinct := booked.distinct.store booked.not_holds_next
  held := by
    intro n h
    rw [timesTaken_inserted]
    rcases (SyncMap.holds_store free _ n).mp h with hn | h
    · have hn : n = next := hn
      have never := booked.gone n (hn ▸ booked.not_holds_next)
      rw [if_neg (by omega)] at never
      exact ⟨by omega, never⟩
    · obtain ⟨born, never⟩ := booked.held n h
      exact ⟨Nat.lt_succ_of_lt born, never⟩
  gone := by
    intro n h
    rw [SyncMap.holds_store free, not_or] at h
    have hn : n ≠ next := h.1
    rw [timesTaken_inserted, booked.gone n h.2]
    have same : n < next ↔ n < next + 1 := by omega
    simp only [same]

/-- Deleting a key takes the entry under it, if there is one. -/
theorem Booked.delete (booked : Booked table next history) (hash : UInt64) {ev : Event}
    (takes : ∀ n, ev.Takes n = true ↔ ∃ entry, table.load hash = some entry ∧ entry.serial = n) :
    Booked (table.delete hash) next (ev :: history) where
  distinct := booked.distinct.delete hash
  held := by
    intro n h
    obtain ⟨h, other⟩ := (booked.distinct.holds_delete hash n).mp h
    rw [timesTaken_cons takes, if_neg (by rintro ⟨e, he, same⟩; exact other e he same)]
    exact booked.held n h
  gone := by
    intro n h
    rw [timesTaken_cons takes]
    by_cases taken : ∃ entry, table.load hash = some entry ∧ entry.serial = n
    · obtain ⟨born, never⟩ := booked.held n ⟨hash, taken⟩
      rw [if_pos taken, if_pos born, never]
    · rw [if_neg taken, Nat.add_zero]
      refine booked.gone n fun before => h ?_
      exact (booked.distinct.holds_delete hash n).mpr
        ⟨before, fun e he same => taken ⟨e, he, same⟩⟩

/-- What the history takes is not in the table. -/
theorem Booked.not_holds (booked : Booked table next history) {ev : Event} (hev : ev ∈ history)
    (takes : ev.Takes n = true) : ¬ table.Holds Entry.serial n := by
  intro h
  have never := (booked.held n h).2
  rw [timesTaken, List.countP_eq_zero] at never
  exact never ev hev takes

/-! ## Reports -/

/-- The account of all insertions so far. -/
structure Accounted (table : SyncMap UInt64 Entry) (next : Nat) (consumer : Consumer)
    (history : List Event) : Prop where
  booked : Booked table next history
  born : ∀ hash entry, .inserted hash entry ∈ history → entry.serial < next
  consistent : consumer.Consistent table next history
  unborn : ∀ n, next ≤ n → timesReported history n = 0
  once : ∀ n, timesReported history n ≤ 1
  /-- A reported entry is in the table only until `Remove` is over. -/
  still : ∀ n, table.Holds Entry.serial n → timesReported history n = 0 ∨ consumer.Removes n
  removed : ∀ hash gone, .removed hash (some gone) ∈ history →
    timesReported history gone.serial = 1
  /-- An entry that was pruned while the consumer was not at work on it is never used. -/
  pruned : ∀ hash judged gone during, .pruned hash judged (some gone) during ∈ history →
    during.Handles gone.serial ∨
      timesReported history gone.serial = 0 ∧ ¬ consumer.Handles gone.serial

namespace Accounted

variable {consumer : Consumer}

theorem start : Accounted SyncMap.empty 0 .idle [] where
  booked := Booked.start
  born := fun hash entry h => by contradiction
  consistent := trivial
  unborn := fun _ _ => rfl
  once := fun _ => Nat.zero_le 1
  still := fun n h => absurd h (SyncMap.not_holds_empty n)
  removed := fun hash gone h => by contradiction
  pruned := fun hash judged gone during h => by contradiction

/-- Entries that the consumer is not removing are not reported. -/
theorem unreported (acc : Accounted table next consumer history) (h : ¬ consumer.Removes n)
    (hn : table.Holds Entry.serial n) : timesReported history n = 0 :=
  (acc.still n hn).resolve_right h

/-- Once the consumer is done with its packet, it handles no pruned entry. -/
theorem pruned_idle (acc : Accounted table next consumer history) {hash : UInt64}
    {judged gone : Entry} {during : Consumer}
    (h : .pruned hash judged (some gone) during ∈ history) :
    during.Handles gone.serial ∨
      timesReported history gone.serial = 0 ∧ ¬ Consumer.idle.Handles gone.serial :=
  (acc.pruned hash judged gone during h).imp id fun unused => ⟨unused.1, id⟩

/-- The consumer returns from `CalcLatency`. -/
theorem finish (acc : Accounted table next consumer history)
    (clean : ∀ n, table.Holds Entry.serial n → timesReported history n = 0) :
    Accounted table next .idle history :=
  { acc with
    consistent := trivial
    still := fun n h => .inl (clean n h)
    pruned := fun _ _ _ _ h => acc.pruned_idle h }

/-- `Get` finds an entry that is in the table now. -/
theorem get (acc : Accounted table next .idle history) (pkt : Packet) (proto : Proto) :
    Accounted table next (.got pkt proto (table.load pkt.hash)) history := by
  have unreported (n : Nat) (hn : table.Holds Entry.serial n) : timesReported history n = 0 :=
    acc.unreported id hn
  cases hload : table.load pkt.hash with
  | none =>
      exact
        { acc with
          consistent := hload
          still := fun n h => .inl (unreported n h)
          pruned := fun _ _ _ _ h => acc.pruned_idle h }
  | some entry =>
      have holds : table.Holds Entry.serial entry.serial := ⟨pkt.hash, entry, hload, rfl⟩
      refine
        { acc with
          consistent := ⟨(acc.booked.held _ holds).1, ⟨?_, ?_⟩, unreported _ holds⟩
          still := fun n h => .inl (unreported n h)
          pruned := ?_ }
      · intro e he
        rw [hload] at he
        exact (Option.some.inj he).symm
      · intro k e he same
        exact acc.booked.distinct k pkt.hash e entry he hload same
      · intro hash judged gone during h
        refine (acc.pruned hash judged gone during h).imp id fun unused => ⟨unused.1, ?_⟩
        intro same
        -- what was pruned is not in the table, so it is not what `Get` found
        have same : entry.serial = gone.serial := same
        have out := acc.booked.not_holds h (Event.takes_pruned _ _ _ _ _ |>.mpr ⟨gone, rfl, rfl⟩)
        exact out (same ▸ holds)

/-- `Insert`, under a key that is still free. -/
theorem insert {pkt : Packet} {proto : Proto}
    (acc : Accounted table next (.got pkt proto none) history) :
    Accounted (table.store pkt.hash { timestamp := pkt.timestamp, serial := next }) (next + 1)
      .idle (.inserted pkt.hash { timestamp := pkt.timestamp, serial := next } :: history) where
  booked := acc.booked.insert acc.consistent pkt.timestamp
  born := by
    intro hash entry h
    rcases List.mem_cons.mp h with h | h
    · rw [(Event.inserted.inj h).2]
      exact Nat.lt_succ_self next
    · exact Nat.lt_succ_of_lt (acc.born hash entry h)
  consistent := trivial
  unborn := by
    intro n hn
    rw [timesReported_inserted]
    exact acc.unborn n (by omega)
  once := by
    intro n
    rw [timesReported_inserted]
    exact acc.once n
  still := by
    intro n h
    rw [timesReported_inserted]
    rcases (SyncMap.holds_store acc.consistent _ n).mp h with hn | h
    · have hn : n = next := hn
      exact .inl (acc.unborn n (by omega))
    · exact .inl (acc.unreported id h)
  removed := by
    intro hash gone h
    rw [timesReported_inserted]
    exact acc.removed hash gone (by simpa using h)
  pruned := by
    intro hash judged gone during h
    rw [timesReported_inserted]
    exact acc.pruned_idle (by simpa using h)

/-- The latency is printed, and `Remove` called. -/
theorem report {pkt : Packet} {proto : Proto} {entry : Entry}
    (acc : Accounted table next (.got pkt proto (some entry)) history) (r : Report) :
    Accounted table next (.removing pkt.hash entry) (.reported entry r :: history) := by
  obtain ⟨born, kept, unused⟩ := acc.consistent
  refine ⟨?_, fun hash e h => acc.born hash e (by simpa using h), ⟨kept, ?_⟩, ?_, ?_, ?_, ?_, ?_⟩
  · refine { acc.booked with held := ?_, gone := ?_ }
    · intro n h
      rw [timesTaken_reported]
      exact acc.booked.held n h
    · intro n h
      rw [timesTaken_reported]
      exact acc.booked.gone n h
  · rw [timesReported_reported, unused, if_pos rfl]
  · intro n hn
    rw [timesReported_reported, acc.unborn n hn, if_neg (by omega)]
  · intro n
    rw [timesReported_reported]
    by_cases hn : entry.serial = n
    · rw [if_pos hn, ← hn, unused]
    · rw [if_neg hn]
      exact acc.once n
  · intro n h
    rw [timesReported_reported]
    by_cases hn : entry.serial = n
    · exact .inr hn
    · rw [if_neg hn]
      exact .inl (acc.unreported id h)
  · intro hash gone h
    have before := acc.removed hash gone (by simpa using h)
    rw [timesReported_reported, before, if_neg]
    intro same
    rw [← same, unused] at before
    contradiction
  · intro hash judged gone during h
    rw [timesReported_reported]
    refine (acc.pruned hash judged gone during (by simpa using h)).imp id fun unused => ?_
    have other : entry.serial ≠ gone.serial := unused.2
    rw [if_neg other]
    exact ⟨unused.1, other⟩

/-- `Remove` deletes the entry that was reported, or nothing. -/
theorem remove {hash : UInt64} {entry : Entry}
    (acc : Accounted table next (.deleting hash entry) history) :
    Accounted (table.delete hash) next .idle (.removed hash (table.load hash) :: history) where
  booked := acc.booked.delete hash (Event.takes_removed hash (table.load hash))
  born := fun hash' e h => acc.born hash' e (by simpa using h)
  consistent := trivial
  unborn := by
    intro n hn
    rw [timesReported_removed]
    exact acc.unborn n hn
  once := by
    intro n
    rw [timesReported_removed]
    exact acc.once n
  still := by
    intro n h
    rw [timesReported_removed]
    obtain ⟨before, other⟩ := (acc.booked.distinct.holds_delete hash n).mp h
    refine .inl ((acc.still n before).resolve_right ?_)
    -- the reported entry was under the deleted key, if anywhere
    rintro rfl
    exact other entry (acc.consistent.1.load_eq before) rfl
  removed := by
    intro hash' gone h
    rw [timesReported_removed]
    rcases List.mem_cons.mp h with h | h
    · obtain ⟨rfl, hload⟩ := Event.removed.inj h
      rw [acc.consistent.1.here gone hload.symm]
      exact acc.consistent.2
    · exact acc.removed hash' gone h
  pruned := by
    intro hash' judged gone during h
    rw [timesReported_removed]
    exact acc.pruned_idle (by simpa using h)

/-- `Prune` deletes whatever is stored under the key. -/
theorem prune (acc : Accounted table next consumer history) (hash : UInt64) (judged : Entry) :
    Accounted (table.delete hash) next consumer
      (.pruned hash judged (table.load hash) consumer :: history) where
  booked := acc.booked.delete hash (Event.takes_pruned hash judged (table.load hash) consumer)
  born := fun hash' e h => acc.born hash' e (by simpa using h)
  consistent := acc.consistent.delete hash fun _ => timesReported_pruned
  unborn := by
    intro n hn
    rw [timesReported_pruned]
    exact acc.unborn n hn
  once := by
    intro n
    rw [timesReported_pruned]
    exact acc.once n
  still := by
    intro n h
    rw [timesReported_pruned]
    exact acc.still n ((acc.booked.distinct.holds_delete hash n).mp h).1
  removed := by
    intro hash' gone h
    rw [timesReported_pruned]
    exact acc.removed hash' gone (by simpa using h)
  pruned := by
    intro hash' judged' gone during h
    rw [timesReported_pruned]
    rcases List.mem_cons.mp h with h | h
    · obtain ⟨_, _, hload, hduring⟩ := Event.pruned.inj h
      subst during
      by_cases handles : consumer.Handles gone.serial
      · exact .inl handles
      · have holds : table.Holds Entry.serial gone.serial := ⟨hash, gone, hload.symm, rfl⟩
        exact .inr ⟨acc.unreported (handles ∘ Consumer.Removes.handles) holds, handles⟩
    · exact acc.pruned hash' judged' gone during h

end Accounted

/-! ## Runs -/

namespace System

/-- The account kept along a run. -/
def Accounts (s : System) : Prop := Accounted s.table s.next s.consumer s.history

theorem Accounts.start : start.Accounts := Accounted.start

theorem Accounts.step {s t : System} {a : Action} (acc : s.Accounts) (h : s.step a = some t) :
    t.Accounts := by
  obtain ⟨table, next, consumer, pruner, history⟩ := s
  cases step_sound h with
  | unknown => exact acc
  | @get pkt proto hat =>
      obtain rfl : consumer = .idle := hat
      exact Accounted.get acc pkt proto
  | @insert pkt proto hat =>
      obtain rfl : consumer = .got pkt proto none := hat
      exact Accounted.insert acc
  | @ignore pkt proto hat =>
      obtain rfl : consumer = .got pkt proto none := hat
      exact Accounted.finish acc fun n => Accounted.unreported acc id
  | @report pkt proto entry hat =>
      obtain rfl : consumer = .got pkt proto (some entry) := hat
      exact Accounted.report acc _
  | @keep pkt proto entry hat =>
      obtain rfl : consumer = .got pkt proto (some entry) := hat
      exact Accounted.finish acc fun n => Accounted.unreported acc id
  | @found hash entry hat =>
      obtain rfl : consumer = .removing hash entry := hat
      exact { acc with }
  | @missing hash entry hat absent =>
      obtain rfl : consumer = .removing hash entry := hat
      refine Accounted.finish acc fun n hn => (Accounted.still acc n hn).resolve_right ?_
      -- the key of the reported entry is free, so the entry is nowhere
      rintro rfl
      have found := (Accounted.consistent acc).1.load_eq hn
      exact absurd (found.symm.trans absent) (Option.some_ne_none entry)
  | @remove hash entry hat =>
      obtain rfl : consumer = .deleting hash entry := hat
      exact Accounted.remove acc
  | clock | visit | condemn | fresh | rangeEnd => exact acc
  | @prune now visited hash entry => exact Accounted.prune acc hash entry

/-- How an insertion ends: one report at most, and out of the table once at most. Both
`Remove` and `Prune` can be its end, but a pruned entry is reported only if the consumer
was at work on it when it was deleted. -/
structure EndsOnce (s : System) (n : Nat) : Prop where
  reported : timesReported s.history n ≤ 1
  /-- The entry is in the table, or was taken out exactly once. -/
  taken : s.table.Holds Entry.serial n ∧ timesTaken s.history n = 0 ∨
    ¬ s.table.Holds Entry.serial n ∧ timesTaken s.history n = 1
  /-- Once the `Remove` that follows a report is over, the entry is out. -/
  left : timesReported s.history n = 1 → s.table.Holds Entry.serial n → s.consumer.Removes n
  /-- `Remove` only takes reported entries. -/
  removed : ∀ hash gone, .removed hash (some gone) ∈ s.history → gone.serial = n →
    timesReported s.history n = 1
  /-- `Prune` takes an entry that is reported only from under the consumer's hands. -/
  pruned : ∀ hash judged gone during, .pruned hash judged (some gone) during ∈ s.history →
    gone.serial = n → timesReported s.history n = 1 → during.Handles n

theorem Accounts.endsOnce {s : System} (acc : s.Accounts) (hn : n < s.next) : s.EndsOnce n where
  reported := acc.once n
  taken := by
    by_cases h : s.table.Holds Entry.serial n
    · exact .inl ⟨h, (acc.booked.held n h).2⟩
    · exact .inr ⟨h, by rw [acc.booked.gone n h, if_pos hn]⟩
  left := by
    intro used h
    refine (acc.still n h).resolve_left ?_
    rw [used]
    exact Nat.one_ne_zero
  removed := by
    rintro hash gone h rfl
    exact acc.removed hash gone h
  pruned := by
    rintro hash judged gone during h rfl used
    refine (acc.pruned hash judged gone during h).resolve_right fun unused => ?_
    rw [used] at unused
    exact Nat.one_ne_zero unused.1

/-- In every run, every insertion ends once. -/
theorem inserted_endsOnce {as : List Action} {t : System}
    (run : Transition.run step start as = some t) {hash : UInt64} {entry : Entry}
    (stored : .inserted hash entry ∈ t.history) : t.EndsOnce entry.serial := by
  have acc : t.Accounts :=
    Transition.run_invariant (fun _ _ _ => Accounts.step) Accounts.start run
  exact acc.endsOnce (acc.born hash entry stored)

/-! ## An entry pruned while it is read -/

/-- The late answer to a connection attempt. -/
def lateAnswer : Packet := lanPacket (2, 443) (1, 40000) 6 true true 20000001000

/-- The answer arrives while the entry is condemned, and is reported from an entry that
is no longer in the table. -/
def prunedWhileRead : List Action :=
  unanswered ++ [.recv lateAnswer, .delete, .consume, .consume]

/-- The entry of the attempt. -/
def attempt : Entry := { timestamp := 1000000000, serial := 0 }

theorem prunedWhileRead_endsOnce :
    ((Transition.run step start prunedWhileRead).get (by decide +kernel)).EndsOnce
      attempt.serial :=
  inserted_endsOnce (Option.some_get _).symm
    (show Event.inserted lateAnswer.hash attempt ∈ _ by decide +kernel)

/-- An entry can be both reported and pruned. -/
theorem prunedWhileRead_refutes_one_outcome :
    ¬ ∀ (as : List Action) (t : System), Transition.run step start as = some t →
      ∀ (hash : UInt64) (entry judged : Entry) (r : Report) (during : Consumer),
        .inserted hash entry ∈ t.history → .reported entry r ∈ t.history →
        .pruned hash judged (some entry) during ∉ t.history := by
  intro claimed
  refine claimed prunedWhileRead
    ((Transition.run step start prunedWhileRead).get (by decide +kernel))
    (Option.some_get _).symm lateAnswer.hash attempt attempt
    (report .tcp lateAnswer attempt.timestamp) (.got lateAnswer .tcp (some attempt)) ?_ ?_ ?_
  · decide +kernel
  · decide +kernel
  · decide +kernel

end System

end Xcnf.Flow
