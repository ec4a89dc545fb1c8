import Mathlib.Data.List.TakeWhile
import Xcnf.Flow.Interleaving

/-!
# What one `Prune` deletes

`Prune` with the table to itself. It deletes the entries in front of the first one that
it judges fresh, in the order in which `Range` visits them. So it deletes every stale
entry only if `Range` happens to visit all of them first. The age is an unsigned
difference: an entry that is stamped after the clock was read has an enormous age, and is
deleted as stale.
-/

namespace Xcnf.Flow

/-! ## Ages -/

/-- The age as the machine computes it. -/
theorem toNat_age (now ts : UInt64) :
    (now - ts).toNat = if ts ≤ now then now.toNat - ts.toNat
      else 2 ^ 64 - (ts.toNat - now.toNat) := by
  have hnow := now.toNat_lt
  have hts := ts.toNat_lt
  rw [UInt64.toNat_sub]
  by_cases h : ts ≤ now
  · have hle := UInt64.le_iff_toNat_le.mp h
    rw [if_pos h]
    omega
  · have hlt := UInt64.lt_iff_toNat_lt.mp (UInt64.not_le.mp h)
    rw [if_neg h]
    omega

/-- The truncating division makes it one millisecond more than ten seconds. -/
theorem stale_iff (now ts : UInt64) : stale now ts = true ↔ 10001000000 ≤ (now - ts).toNat := by
  rw [stale, decide_eq_true_iff, gt_iff_lt, UInt64.lt_iff_toNat_lt, UInt64.toNat_div]
  change 10000 < (now - ts).toNat / 1000000 ↔ _
  omega

/-- An entry stamped before the clock was read is stale by its age in milliseconds. -/
theorem stale_of_le {now ts : UInt64} (h : ts ≤ now) :
    stale now ts = true ↔ 10000 < (now.toNat - ts.toNat) / 1000000 := by
  rw [stale_iff, toNat_age, if_pos h]
  omega

namespace FlowTable

variable {now : UInt64} {order : List UInt64} {table : FlowTable}

/-- The key is gone or its entry stale. -/
def staleAt (now : UInt64) (table : FlowTable) (hash : UInt64) : Bool :=
  (table.get hash).all (stale now)

/-- `Prune` deletes the stale entries in front of the first fresh one, and nothing else. -/
theorem get_pruneAt (nodup : order.Nodup) (hash : UInt64) :
    (table.pruneAt now order).get hash =
      if hash ∈ order.takeWhile (staleAt now table) then none else table.get hash :=
  SyncMap.load_range_deleteWhile nodup (fun _ _ => rfl) hash

theorem staleAt_eq {hash ts : UInt64} (h : table.get hash = some ts) :
    staleAt now table hash = stale now ts := by
  rw [staleAt, h, Option.all_some]

/-! ## A filter, if the stale entries come first -/

/-- The entries left are those at most ten seconds old, as they were. -/
def FiltersStale (now : UInt64) (order : List UInt64) (table : FlowTable) : Prop :=
  ∀ hash ts, (table.pruneAt now order).get hash = some ts ↔
    table.get hash = some ts ∧ (now.toNat - ts.toNat) / 1000000 ≤ 10000

/-- No fresh entry is visited before a stale one. -/
def StaleFirst (now : UInt64) (order : List UInt64) (table : FlowTable) : Prop :=
  order.Pairwise fun first second =>
    staleAt now table second = true → staleAt now table first = true

instance (now : UInt64) (order : List UInt64) (table : FlowTable) :
    Decidable (StaleFirst now order table) :=
  inferInstanceAs (Decidable (order.Pairwise _))

/-- A walk up to the first failure meets everything that passes exactly if nothing that
passes comes after a failure. -/
theorem takeWhile_complete_iff {α : Type} {p : α → Bool} {xs : List α} (nodup : xs.Nodup) :
    (∀ x ∈ xs, p x = true → x ∈ xs.takeWhile p) ↔
      xs.Pairwise fun first second => p second = true → p first = true := by
  induction xs with
  | nil => simp
  | cons a xs ih =>
      obtain ⟨notin, nodup⟩ := List.nodup_cons.mp nodup
      rw [List.pairwise_cons, ← ih nodup]
      cases ha : p a with
      | true =>
          rw [List.takeWhile_cons_of_pos ha]
          constructor
          · intro complete
            refine ⟨fun _ _ _ => rfl, fun x hx passes => ?_⟩
            have met := complete x (List.mem_cons_of_mem a hx) passes
            exact (List.mem_cons.mp met).resolve_left fun same => notin (same ▸ hx)
          · rintro ⟨_, complete⟩ x hx passes
            rcases List.mem_cons.mp hx with rfl | hx
            · exact List.mem_cons_self
            · exact List.mem_cons_of_mem a (complete x hx passes)
      | false =>
          rw [List.takeWhile_cons_of_neg (by rw [ha]; exact Bool.false_ne_true)]
          constructor
          · intro complete
            refine ⟨fun x hx passes => ?_, fun x hx passes => ?_⟩
            · exact absurd (complete x (List.mem_cons_of_mem a hx) passes) List.not_mem_nil
            · exact absurd (complete x (List.mem_cons_of_mem a hx) passes) List.not_mem_nil
          · rintro ⟨none_passes, _⟩ x hx passes
            rcases List.mem_cons.mp hx with rfl | hx
            · exact absurd (ha.symm.trans passes) Bool.false_ne_true
            · exact absurd (none_passes x hx passes) Bool.false_ne_true

/-- `Prune` is a filter exactly for the orders that visit the stale entries first. -/
theorem pruneAt_filters_iff (visits : SyncMap.Enumerates order table)
    (stamped : ∀ hash ts, table.get hash = some ts → ts ≤ now) :
    FiltersStale now order table ↔ StaleFirst now order table := by
  have judged {hash ts : UInt64} (h : table.get hash = some ts) :
      staleAt now table hash = true ↔ 10000 < (now.toNat - ts.toNat) / 1000000 := by
    rw [staleAt_eq h, stale_of_le (stamped hash ts h)]
  rw [StaleFirst, ← takeWhile_complete_iff visits.nodup]
  constructor
  · intro filters hash visited old
    obtain ⟨ts, held⟩ := (visits.mem_iff hash).mp visited
    by_contra spared
    have kept : (table.pruneAt now order).get hash = some ts := by
      rw [get_pruneAt visits.nodup, if_neg spared]
      exact held
    have fresh := ((filters hash ts).mp kept).2
    have age := (judged held).mp old
    omega
  · intro complete hash ts
    rw [get_pruneAt visits.nodup]
    by_cases deleted : hash ∈ order.takeWhile (staleAt now table)
    · rw [if_pos deleted]
      constructor
      · intro h
        contradiction
      · rintro ⟨held, fresh⟩
        have age := (judged held).mp (List.mem_takeWhile_imp deleted)
        omega
    · rw [if_neg deleted]
      constructor
      · intro held
        refine ⟨held, Nat.not_lt.mp fun age => deleted ?_⟩
        exact complete hash ((visits.mem_iff hash).mpr ⟨ts, held⟩) ((judged held).mpr age)
      · exact And.left

/-- A flow opened one second after boot, and one opened after nineteen seconds. -/
def oneStale : FlowTable := (insert SyncMap.empty 1 1000000000).insert 2 19000000000

theorem oneStale_get (hash : UInt64) :
    oneStale.get hash =
      if hash = 2 then some 19000000000 else if hash = 1 then some 1000000000 else none := by
  by_cases second : hash = 2
  · rw [if_pos second, second, oneStale, get_insert_self]
  · rw [if_neg second, oneStale, get_insert_ne _ _ second]
    by_cases first : hash = 1
    · rw [if_pos first, first, get_insert_self]
    · rw [if_neg first, get_insert_ne _ _ first, get_empty]

theorem oneStale_visits {order : List UInt64} (nodup : order.Nodup)
    (both : ∀ hash, hash ∈ order ↔ hash = 2 ∨ hash = 1) : SyncMap.Enumerates order oneStale where
  nodup := nodup
  mem_iff := by
    intro hash
    change hash ∈ order ↔ ∃ ts, oneStale.get hash = some ts
    rw [both, oneStale_get]
    by_cases second : hash = 2
    · simp [second]
    · by_cases first : hash = 1 <;> simp [second, first]

theorem oneStale_stamped {hash ts : UInt64} (h : oneStale.get hash = some ts) :
    ts ≤ 20000000000 := by
  rw [oneStale_get] at h
  split at h
  · exact Option.some.inj h ▸ (by decide)
  · split at h
    · exact Option.some.inj h ▸ (by decide)
    · contradiction

/-- The order that visits the stale flow first. -/
theorem oneStale_filters_iff :
    FiltersStale 20000000000 [1, 2] oneStale ↔ StaleFirst 20000000000 [1, 2] oneStale :=
  pruneAt_filters_iff (oneStale_visits (by decide) (by simp [or_comm])) fun _ _ => oneStale_stamped

/-- The other order ends at the fresh flow, and the stale one stays. -/
theorem oneStale_refutes_filter :
    ¬ ∀ (now : UInt64) (order : List UInt64) (table : FlowTable), SyncMap.Enumerates order table →
      (∀ hash ts, table.get hash = some ts → ts ≤ now) → FiltersStale now order table := by
  intro claimed
  have filters := claimed 20000000000 [2, 1] oneStale
    (oneStale_visits (by decide) (by simp)) fun _ _ => oneStale_stamped
  have left : (oneStale.pruneAt 20000000000 [2, 1]).get 1 = some 1000000000 := by decide +kernel
  have fresh := ((filters 1 1000000000).mp left).2
  revert fresh
  decide

/-! ## Entries stamped after the clock was read -/

/-- Whatever the order, only entries more than ten seconds old are deleted. -/
def DiscardsOnlyOld (now : UInt64) (table : FlowTable) : Prop :=
  ∀ order, SyncMap.Enumerates order table → ∀ hash ts, table.get hash = some ts →
    (table.pruneAt now order).get hash = none → ts < now ∧ 10000000000 < now.toNat - ts.toNat

/-- An entry can be deleted in some order if it is stale, and in no order if it is not. -/
theorem deleted_iff_stale {hash ts : UInt64} (held : table.get hash = some ts) :
    (∃ order, SyncMap.Enumerates order table ∧ (table.pruneAt now order).get hash = none) ↔
      stale now ts = true := by
  constructor
  · rintro ⟨order, visits, gone⟩
    rw [get_pruneAt visits.nodup, held] at gone
    split at gone
    next deleted =>
        have judged := List.mem_takeWhile_imp deleted
        rwa [staleAt_eq held] at judged
    next => contradiction
  · intro old
    obtain ⟨ks, visits⟩ := SyncMap.exists_enumerates_cons held
    refine ⟨hash :: ks, visits, ?_⟩
    have first : staleAt now table hash = true := by rwa [staleAt_eq held]
    rw [get_pruneAt visits.nodup, List.takeWhile_cons_of_pos first, if_pos List.mem_cons_self]

/-- `Prune` deletes only old entries unless there is one stamped after the clock was
read. The difference to such a stamp wraps around, and is no more than ten seconds only
for stamps some five hundred years ahead. -/
theorem discardsOnlyOld_iff (now : UInt64) (table : FlowTable) :
    DiscardsOnlyOld now table ↔
      ∀ hash ts, table.get hash = some ts → now < ts →
        2 ^ 64 - 10001000000 < ts.toNat - now.toNat := by
  constructor
  · intro discards hash ts held ahead
    by_contra wraps
    have old : stale now ts = true := by
      rw [stale_iff, toNat_age, if_neg (UInt64.not_le.mpr ahead)]
      omega
    obtain ⟨order, visits, gone⟩ := (deleted_iff_stale held).mpr old
    exact UInt64.lt_asymm ahead (discards order visits hash ts held gone).1
  · intro behind order visits hash ts held gone
    have old := (deleted_iff_stale held).mp ⟨order, visits, gone⟩
    by_cases h : ts ≤ now
    · have age := (stale_of_le h).mp old
      refine ⟨?_, by omega⟩
      rw [UInt64.lt_iff_toNat_lt]
      omega
    · have ahead := UInt64.not_le.mp h
      have far := behind hash ts held ahead
      rw [stale_iff, toNat_age, if_neg h] at old
      omega

/-- When the clock cannot be read, every entry looks older than ten seconds: the flow
opened a second after boot is deleted at time zero. -/
theorem clockFailed_refutes_onlyOld :
    ¬ ∀ (now : UInt64) (table : FlowTable), DiscardsOnlyOld now table := by
  intro claimed
  have held : oneStale.get 1 = some 1000000000 := by decide +kernel
  have gone : (oneStale.prune none [1, 2]).get 1 = none := by decide +kernel
  have visits : SyncMap.Enumerates [1, 2] oneStale :=
    oneStale_visits (by decide) (by simp [or_comm])
  exact absurd (claimed 0 oneStale [1, 2] visits 1 1000000000 held gone).1 (by decide)

end FlowTable

/-! ## The ticker undisturbed -/

namespace FlowTable

variable {now : UInt64} {table : FlowTable} {hash : UInt64}

theorem pruneAt_absent (h : table.get hash = none) (order : List UInt64) :
    table.pruneAt now (hash :: order) = table.pruneAt now order := by
  rw [pruneAt, SyncMap.range, show table.load hash = none from h]
  rfl

theorem pruneAt_stale {ts : UInt64} (h : table.get hash = some ts) (old : stale now ts = true)
    (order : List UInt64) :
    table.pruneAt now (hash :: order) = pruneAt now order (table.delete hash) := by
  rw [pruneAt, SyncMap.range, show table.load hash = some ts from h]
  simp only [old, if_true]
  rfl

theorem pruneAt_fresh {ts : UInt64} (h : table.get hash = some ts) (young : ¬ stale now ts = true)
    (order : List UInt64) : table.pruneAt now (hash :: order) = table := by
  rw [pruneAt, SyncMap.range, show table.load hash = some ts from h]
  simp only [if_neg young]
  rfl

end FlowTable

namespace System

/-- The steps of the ticker goroutine. -/
def Action.IsTick : Action → Prop
  | .recv _ | .consume => False
  | .clock _ | .visit _ | .compare | .delete | .rangeEnd => True

section Visit

variable {now hash : UInt64} {visited : List UInt64} {s : System} {entry : Entry}

theorem step_visit (ranging : s.pruner = .ranging now visited) (new : hash ∉ visited)
    (held : s.table.load hash = some entry) :
    step s (.visit hash) =
      some { s with pruner := .visiting now (hash :: visited) hash entry } := by
  simp only [step, ranging, held, if_neg new]

/-- A visit to a stale entry deletes it and goes on. -/
theorem run_visit_stale (ranging : s.pruner = .ranging now visited) (new : hash ∉ visited)
    (held : s.table.load hash = some entry) (old : stale now entry.timestamp = true) :
    ∃ t, Transition.run step s [.visit hash, .compare, .delete] = some t ∧
      t.pruner = .ranging now (hash :: visited) ∧ t.consumer = s.consumer ∧
      t.table = s.table.delete hash := by
  refine ⟨{ s with
    table := s.table.delete hash
    pruner := .ranging now (hash :: visited)
    history := .pruned hash entry (some entry) s.consumer :: s.history }, ?_, rfl, rfl, rfl⟩
  rw [Transition.run_cons, step_visit ranging new held, Option.bind_some]
  simp only [Transition.run_cons, Option.bind_some, step, if_pos old, held, Transition.run_nil]

/-- A visit to a fresh entry ends the walk. -/
theorem run_visit_fresh (ranging : s.pruner = .ranging now visited) (new : hash ∉ visited)
    (held : s.table.load hash = some entry) (young : ¬ stale now entry.timestamp = true) :
    Transition.run step s [.visit hash, .compare] = some { s with pruner := .idle } := by
  rw [Transition.run_cons, step_visit ranging new held, Option.bind_some, Transition.run_single]
  simp only [step, if_neg young]

end Visit

/-- The walk of `Range` over keys that it has not visited yet. -/
theorem run_range {now : UInt64} {order : List UInt64} (nodup : order.Nodup) {s : System}
    {table : FlowTable} {visited : List UInt64} (ranging : s.pruner = .ranging now visited)
    (unvisited : ∀ hash ∈ order, hash ∉ visited) (shows : Shows s.table table) :
    ∃ as t, (∀ a ∈ as, Action.IsTick a) ∧ Transition.run step s as = some t ∧
      t.pruner = .idle ∧ t.consumer = s.consumer ∧ Shows t.table (table.pruneAt now order) := by
  induction order generalizing s table visited with
  | nil =>
      refine ⟨[.rangeEnd], { s with pruner := .idle }, by simp [Action.IsTick], ?_, rfl, rfl, shows⟩
      simp only [Transition.run_single, step, ranging]
  | cons hash order ih =>
      obtain ⟨notin, nodup⟩ := List.nodup_cons.mp nodup
      have new : hash ∉ visited := unvisited hash List.mem_cons_self
      have later : ∀ k ∈ order, k ∉ visited :=
        fun k hk => unvisited k (List.mem_cons_of_mem hash hk)
      have hget : table.get hash = (s.table.load hash).map Entry.timestamp := shows hash
      cases hload : s.table.load hash with
      | none =>
          rw [hload] at hget
          rw [FlowTable.pruneAt_absent hget]
          exact ih nodup ranging later shows
      | some entry =>
          rw [hload] at hget
          by_cases old : stale now entry.timestamp = true
          · rw [FlowTable.pruneAt_stale hget old]
            obtain ⟨m, first, ranging', consumer, rest⟩ := run_visit_stale ranging new hload old
            have deleted : Shows m.table (table.delete hash) := by
              rw [rest, ← FlowTable.remove_eq_delete]
              exact shows.delete hash
            have unvisited' : ∀ k ∈ order, k ∉ hash :: visited := by
              intro k hk
              rw [List.mem_cons, not_or]
              exact ⟨fun same => notin (same ▸ hk), later k hk⟩
            obtain ⟨as, t, ticks, run, idle, same, final⟩ := ih nodup ranging' unvisited' deleted
            refine ⟨[.visit hash, .compare, .delete] ++ as, t, ?_, ?_, idle,
              same.trans consumer, final⟩
            · simp only [List.cons_append, List.nil_append, List.mem_cons]
              rintro a (rfl | rfl | rfl | ha)
              · trivial
              · trivial
              · trivial
              · exact ticks a ha
            · rw [Transition.run_append, first]
              exact run
          · rw [FlowTable.pruneAt_fresh hget old]
            exact ⟨[.visit hash, .compare], { s with pruner := .idle }, by simp [Action.IsTick],
              run_visit_fresh ranging new hload old, rfl, rfl, shows⟩

/-- With no step of the other goroutine in between, the steps of the ticker goroutine are
`Prune`: the same table, for each order of `Range`. -/
theorem run_pruneAt {s : System} {table : FlowTable} (idle : s.pruner = .idle)
    (shows : Shows s.table table) (now : UInt64) {order : List UInt64} (nodup : order.Nodup) :
    ∃ as t, (∀ a ∈ as, Action.IsTick a) ∧ Transition.run step s (.clock now :: as) = some t ∧
      t.pruner = .idle ∧ t.consumer = s.consumer ∧ Shows t.table (table.pruneAt now order) := by
  have read : step s (.clock now) = some { s with pruner := .ranging now [] } := by
    simp only [step, idle]
  obtain ⟨as, t, ticks, run, final⟩ :=
    run_range nodup (s := { s with pruner := .ranging now [] }) rfl
      (fun _ _ => List.not_mem_nil) shows
  refine ⟨as, t, ticks, ?_, final⟩
  rw [Transition.run_cons, read]
  exact run

-- The clock is read, a flow is opened later, and `Range` deletes it at once.
example :
    let syn := lanPacket (1, 40000) (2, 443) 6 true false 20000000001
    ((Transition.run step start
        [.clock 20000000000, .recv syn, .consume, .visit syn.hash, .compare, .delete]).map
      fun t => (t.table.load syn.hash).isNone) = some true := by
  decide +kernel

end System

end Xcnf.Flow
