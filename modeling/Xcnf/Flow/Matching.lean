import Xcnf.Flow.Outcomes

/-!
# Which packets a latency is measured between

Whatever `Prune` does meanwhile, every latency that `CalcLatency` prints is measured from an
earlier packet to a later one of the same hash. No packet is used for two latencies, neither
as the first of the two packets, nor as the second, nor as both (`System.run_matched`).

Packets are named by their places in the sequence that `CalcLatency` is called with. The
invariant is `System.Traced`: an entry is traced through its serial number to the place of
the packet that it was stored for.
-/

namespace Xcnf.Flow

/-! ## Matchings -/

/-- Each of the results, latest first, is for a pair of places, the earlier one first. Their
later places are in the order of the results, and no place is used twice. -/
structure Matching {ρ : Type} (R : ρ → Nat → Nat → Prop) (rs : List ρ)
    (pairs : List (Nat × Nat)) : Prop where
  joins : List.Forall₂ (fun r p => p.1 < p.2 ∧ R r p.1 p.2) rs pairs
  sorted : pairs.Pairwise fun p q => q.2 < p.2
  openers : pairs.Pairwise fun p q => p.1 ≠ q.1
  roles : ∀ p ∈ pairs, ∀ q ∈ pairs, p.1 ≠ q.2

namespace Matching

variable {ρ : Type} {R R' : ρ → Nat → Nat → Prop} {rs : List ρ} {pairs : List (Nat × Nat)}

theorem nil : Matching R [] [] where
  joins := .nil
  sorted := .nil
  openers := .nil
  roles := fun p h => by contradiction

theorem mono (h : Matching R rs pairs) (weaken : ∀ r i j, R r i j → R' r i j) :
    Matching R' rs pairs :=
  { h with joins := h.joins.imp fun r p joined => ⟨joined.1, weaken r p.1 p.2 joined.2⟩ }

theorem earlier (h : Matching R rs pairs) : ∀ p ∈ pairs, p.1 < p.2 := by
  have joins := h.joins
  clear h
  induction joins with
  | nil => exact fun p hp => by contradiction
  | cons first _ ih =>
      intro p hp
      cases hp with
      | head => exact first.1
      | tail _ hp => exact ih p hp

theorem cons (h : Matching R rs pairs) {r : ρ} {i j : Nat} (earlier : i < j) (joined : R r i j)
    (last : ∀ p ∈ pairs, p.2 < j) (unused : ∀ p ∈ pairs, i ≠ p.1 ∧ i ≠ p.2) :
    Matching R (r :: rs) ((i, j) :: pairs) where
  joins := .cons ⟨earlier, joined⟩ h.joins
  sorted := .cons last h.sorted
  openers := .cons (fun p hp => (unused p hp).1) h.openers
  roles := by
    intro p hp q hq
    cases hp with
    | head =>
        cases hq with
        | head => exact Nat.ne_of_lt earlier
        | tail _ hq => exact (unused q hq).2
    | tail _ hp =>
        cases hq with
        | head => exact Nat.ne_of_lt ((h.earlier p hp).trans (last p hp))
        | tail _ hq => exact h.roles p hp q hq

end Matching

/-! ## Where an entry comes from -/

/-- The packet at this place opened the flow with this hash, at this time. -/
def OpenedAt (pkts : List Packet) (i : Nat) (hash ts : UInt64) : Prop :=
  ∃ p, pkts[i]? = some p ∧ p.hash = hash ∧ p.Opens ∧ p.timestamp = ts

/-- The latency is from the packet at place `i` to the packet at place `j`. -/
def Measured (pkts : List Packet) (r : Report) (i j : Nat) : Prop :=
  ∃ q proto ts, pkts[j]? = some q ∧ q.Closes ∧ ipProtoNums q.protocol = some proto ∧
    OpenedAt pkts i q.hash ts ∧ r = report proto q ts

section

variable {pkts : List Packet} {i j : Nat} {hash ts : UInt64} {r : Report}

/-- What `CalcLatency` asks of a packet whose protocol it knows. -/
theorem opens_closes_iff {pkt : Packet} {proto : Proto}
    (h : ipProtoNums pkt.protocol = some proto) :
    (pkt.syn ∨ proto = .udp ↔ pkt.Opens) ∧ (pkt.ack ∨ proto = .udp ↔ pkt.Closes) := by
  have monitored : pkt.Monitored := by
    by_contra unknown
    rw [ipProtoNums_eq_none unknown] at h
    contradiction
  obtain ⟨proto', h', both⟩ := ipProtoNums_eq_some monitored
  obtain rfl := Option.some.inj (h.symm.trans h')
  exact both

theorem getElem?_append_some {α : Type} {xs : List α} {x : α} (h : xs[i]? = some x)
    (more : List α) : (xs ++ more)[i]? = some x := by
  obtain ⟨inside, _⟩ := List.getElem?_eq_some_iff.mp h
  rw [List.getElem?_append_left inside, h]

theorem OpenedAt.append (h : OpenedAt pkts i hash ts) (more : List Packet) :
    OpenedAt (pkts ++ more) i hash ts := by
  obtain ⟨p, at_, opened⟩ := h
  exact ⟨p, getElem?_append_some at_ more, opened⟩

theorem Measured.append (h : Measured pkts r i j) (more : List Packet) :
    Measured (pkts ++ more) r i j := by
  obtain ⟨q, proto, ts, at_, closes, protocol, opened, same⟩ := h
  exact ⟨q, proto, ts, getElem?_append_some at_ more, closes, protocol, opened.append more, same⟩

end

namespace System

def Action.packet? : Action → Option Packet
  | .recv pkt => some pkt
  | _ => none

/-- The packets that `CalcLatency` is called with. -/
def received (as : List Action) : List Packet := as.filterMap Action.packet?

theorem received_snoc (as : List Action) (a : Action) :
    received (as ++ [a]) = received as ++ a.packet?.toList :=
  Transition.filterMap_snoc Action.packet? as a

/-- While the consumer works on a packet, that is the last one, and it has not been used. -/
def Current (pkts : List Packet) (next : Nat) (origin : Nat → Nat) (pairs : List (Nat × Nat)) :
    Consumer → Prop
  | .got pkt proto found =>
    ∃ before, pkts = before ++ [pkt] ∧ ipProtoNums pkt.protocol = some proto ∧
      (∀ n < next, origin n < before.length) ∧ (∀ p ∈ pairs, p.2 < before.length) ∧
      ∀ e ∈ found, OpenedAt before (origin e.serial) pkt.hash e.timestamp
  | .idle | .removing _ _ | .deleting _ _ => True

/-- The entry with serial number `n` was stored for the packet at place `origin n`, and each
pair of places starts with a reported entry's. -/
structure Traced (pkts : List Packet) (origin : Nat → Nat) (pairs : List (Nat × Nat))
    (s : System) : Prop where
  matching : Matching (Measured pkts) s.reports pairs
  accounts : s.Accounts
  ascending : ∀ m n, m < n → n < s.next → origin m < origin n
  inside : ∀ n < s.next, origin n < pkts.length
  closers : ∀ p ∈ pairs, p.2 < pkts.length ∧ ∀ n < s.next, origin n ≠ p.2
  openers : ∀ p ∈ pairs, ∃ n, timesReported s.history n ≠ 0 ∧ p.1 = origin n
  table : ∀ k e, s.table.load k = some e → OpenedAt pkts (origin e.serial) k e.timestamp
  current : Current pkts s.next origin pairs s.consumer

namespace Traced

variable {pkts : List Packet} {origin : Nat → Nat} {pairs : List (Nat × Nat)} {s t : System}

theorem start : Traced [] origin [] System.start where
  matching := .nil
  accounts := Accounts.start
  ascending := fun m n _ h => by contradiction
  inside := fun n h => by contradiction
  closers := fun p h => by contradiction
  openers := fun p h => by contradiction
  table := by
    intro k e h
    rw [System.start, SyncMap.load_empty] at h
    contradiction
  current := trivial

/-- A step that stores nothing and prints nothing. -/
theorem keep (inv : Traced pkts origin pairs s) (accounts : t.Accounts) (next : t.next = s.next)
    (reports : t.reports = s.reports)
    (times : ∀ n, timesReported t.history n = timesReported s.history n)
    (table : ∀ k e, t.table.load k = some e → s.table.load k = some e)
    (current : Current pkts s.next origin pairs t.consumer) : Traced pkts origin pairs t where
  matching := reports ▸ inv.matching
  accounts := accounts
  ascending := next ▸ inv.ascending
  inside := next ▸ inv.inside
  closers := next ▸ inv.closers
  openers := fun p hp => by simpa only [times] using inv.openers p hp
  table := fun k e h => inv.table k e (table k e h)
  current := next ▸ current

/-- `CalcLatency` is called. -/
theorem append (inv : Traced pkts origin pairs s) (idle : s.consumer = .idle) (pkt : Packet) :
    Traced (pkts ++ [pkt]) origin pairs s where
  matching := inv.matching.mono fun _ _ _ h => h.append [pkt]
  accounts := inv.accounts
  ascending := inv.ascending
  inside := fun n hn => by
    rw [List.length_append]
    exact Nat.lt_add_right _ (inv.inside n hn)
  closers := fun p hp => by
    rw [List.length_append]
    exact ⟨Nat.lt_add_right _ (inv.closers p hp).1, (inv.closers p hp).2⟩
  openers := inv.openers
  table := fun k e h => (inv.table k e h).append [pkt]
  current := by
    rw [idle]
    trivial

/-- `Get` returns what is in the table now. -/
theorem get (inv : Traced pkts origin pairs s) (idle : s.consumer = .idle) {pkt : Packet}
    {proto : Proto} (protocol : ipProtoNums pkt.protocol = some proto)
    (accounts : Accounts { s with consumer := .got pkt proto (s.table.load pkt.hash) }) :
    Traced (pkts ++ [pkt]) origin pairs
      { s with consumer := .got pkt proto (s.table.load pkt.hash) } := by
  apply (inv.append idle pkt).keep accounts rfl rfl (fun _ => rfl) (fun _ _ h => h)
  exact ⟨pkts, rfl, protocol, inv.inside, fun p hp => (inv.closers p hp).1,
    fun e found => inv.table pkt.hash e found⟩

/-- A reported entry is an old one. -/
theorem reported_lt (inv : Traced pkts origin pairs s) {n : Nat}
    (reported : timesReported s.history n ≠ 0) : n < s.next :=
  Nat.lt_of_not_le fun unborn => reported (inv.accounts.unborn n unborn)

/-- Different entries were stored for different packets. -/
theorem origin_inj (inv : Traced pkts origin pairs s) {m n : Nat} (hm : m < s.next)
    (hn : n < s.next) (same : origin m = origin n) : m = n := by
  cases Nat.lt_trichotomy m n with
  | inl less => exact absurd same (Nat.ne_of_lt (inv.ascending m n less hn))
  | inr rest =>
      cases rest with
      | inl equal => exact equal
      | inr less => exact absurd same (Nat.ne_of_gt (inv.ascending n m less hm))

theorem protocol (inv : Traced pkts origin pairs s) {pkt : Packet} {proto : Proto}
    {found : Option Entry} (at_ : s.consumer = .got pkt proto found) :
    ipProtoNums pkt.protocol = some proto := by
  have current := inv.current
  rw [at_] at current
  obtain ⟨_, _, protocol, _⟩ := current
  exact protocol

/-- What holds of all old places and of a new one. -/
theorem forall_lt_update {k j : Nat} {P : Nat → Nat → Prop} (old : ∀ n < k, P n (origin n))
    (new : P k j) : ∀ n < k + 1, P n (Function.update origin k j n) := by
  intro n hn
  cases Nat.lt_succ_iff_lt_or_eq.mp hn with
  | inl less =>
      rw [Function.update_of_ne (Nat.ne_of_lt less)]
      exact old n less
  | inr same =>
      rw [same, Function.update_self]
      exact new

/-- The new entry is for the packet at the last place. -/
theorem insert (inv : Traced pkts origin pairs s) {pkt : Packet} {proto : Proto}
    (at_ : s.consumer = .got pkt proto none) (opens : pkt.Opens)
    (accounts : Accounts
      { s with
        table := s.table.store pkt.hash { timestamp := pkt.timestamp, serial := s.next }
        next := s.next + 1
        consumer := .idle
        history := .inserted pkt.hash { timestamp := pkt.timestamp, serial := s.next } ::
          s.history }) :
    ∃ origin', Traced pkts origin' pairs
      { s with
        table := s.table.store pkt.hash { timestamp := pkt.timestamp, serial := s.next }
        next := s.next + 1
        consumer := .idle
        history := .inserted pkt.hash { timestamp := pkt.timestamp, serial := s.next } ::
          s.history } := by
  have current := inv.current
  rw [at_] at current
  obtain ⟨before, rfl, protocol, old, closed, _⟩ := current
  have kept {n : Nat} (h : n < s.next) : Function.update origin s.next before.length n = origin n :=
    Function.update_of_ne (Nat.ne_of_lt h) ..
  refine ⟨Function.update origin s.next before.length, inv.matching, accounts, ?_, ?_, ?_, ?_, ?_,
    trivial⟩
  · intro m n less hn
    refine forall_lt_update (P := fun n i =>
      ∀ m < n, Function.update origin s.next before.length m < i) ?_ ?_ n hn m less
    · intro n hn m less
      rw [kept (less.trans hn)]
      exact inv.ascending m n less hn
    · intro m hm
      rw [kept hm]
      exact old m hm
  · apply forall_lt_update (P := fun _ i => i < (before ++ [pkt]).length) inv.inside
    rw [List.length_append]
    exact Nat.lt_succ_self _
  · exact fun p hp => ⟨(inv.closers p hp).1,
      forall_lt_update (P := fun _ i => i ≠ p.2) (inv.closers p hp).2 (Nat.ne_of_gt (closed p hp))⟩
  · intro p hp
    obtain ⟨n, reported, from_⟩ := inv.openers p hp
    refine ⟨n, ?_, ?_⟩
    · rwa [timesReported_inserted]
    · rw [kept (inv.reported_lt reported), from_]
  · intro k e h
    by_cases hk : k = pkt.hash
    · subst hk
      rw [SyncMap.load_store_self] at h
      obtain rfl := Option.some.inj h
      rw [Function.update_self]
      exact ⟨pkt, List.getElem?_concat_length, rfl, opens, rfl⟩
    · rw [SyncMap.load_store_ne _ _ hk] at h
      rw [kept (inv.accounts.booked.held e.serial ⟨k, e, h, rfl⟩).1]
      exact inv.table k e h

/-- The latency is measured to the packet at the last place. -/
theorem report (inv : Traced pkts origin pairs s) {pkt : Packet} {proto : Proto} {entry : Entry}
    (at_ : s.consumer = .got pkt proto (some entry)) (closes : pkt.Closes)
    (accounts : Accounts
      { s with
        consumer := .removing pkt.hash entry
        history := .reported entry (report proto pkt entry.timestamp) :: s.history }) :
    ∃ pairs', Traced pkts origin pairs'
      { s with
        consumer := .removing pkt.hash entry
        history := .reported entry (report proto pkt entry.timestamp) :: s.history } := by
  have current := inv.current
  have consistent := inv.accounts.consistent
  rw [at_] at current consistent
  obtain ⟨before, rfl, protocol, old, closed, opened⟩ := current
  obtain ⟨born, _, unused⟩ := consistent
  refine ⟨(origin entry.serial, before.length) :: pairs, ?_, accounts, inv.ascending, inv.inside,
    ?_, ?_, inv.table, trivial⟩
  · apply inv.matching.cons (old entry.serial born)
    · exact ⟨pkt, proto, entry.timestamp, List.getElem?_concat_length, closes, protocol,
        (opened entry rfl).append [pkt], rfl⟩
    · exact closed
    · intro p hp
      refine ⟨fun same => ?_, (inv.closers p hp).2 entry.serial born⟩
      -- the entry of an earlier pair was reported, this one has not been
      obtain ⟨n, reported, from_⟩ := inv.openers p hp
      have same := inv.origin_inj born (inv.reported_lt reported) (same.trans from_)
      exact reported (same ▸ unused)
  · intro p hp
    cases hp with
    | head =>
        refine ⟨?_, fun n hn => Nat.ne_of_lt (old n hn)⟩
        rw [List.length_append]
        exact Nat.lt_succ_self _
    | tail _ hp => exact inv.closers p hp
  · intro p hp
    cases hp with
    | head =>
        refine ⟨entry.serial, ?_, rfl⟩
        rw [timesReported_reported, if_pos rfl]
        exact Nat.succ_ne_zero _
    | tail _ hp =>
        obtain ⟨n, reported, from_⟩ := inv.openers p hp
        refine ⟨n, ?_, from_⟩
        rw [timesReported_reported]
        omega

/-- A step that calls `CalcLatency` on nothing keeps what is traced. -/
theorem step_of_no_packet (inv : Traced pkts origin pairs s) {a : Action}
    (h : s.step a = some t) (none : a.packet? = none) :
    ∃ origin' pairs', Traced pkts origin' pairs' t := by
  have accounts := inv.accounts.step h
  cases step_sound h with
  | unknown | get => contradiction
  | insert at_ opens =>
      have opens := (opens_closes_iff (inv.protocol at_)).1.mp opens
      obtain ⟨origin', traced⟩ := inv.insert at_ opens accounts
      exact ⟨origin', pairs, traced⟩
  | report at_ closes =>
      have closes := (opens_closes_iff (inv.protocol at_)).2.mp closes
      obtain ⟨pairs', traced⟩ := inv.report at_ closes accounts
      exact ⟨origin, pairs', traced⟩
  | ignore | keep | found | missing =>
      exact ⟨origin, pairs, inv.keep accounts rfl rfl (fun _ => rfl) (fun _ _ h => h) trivial⟩
  | clock | visit | condemn | fresh | rangeEnd =>
      exact ⟨origin, pairs, inv.keep accounts rfl rfl (fun _ => rfl) (fun _ _ h => h) inv.current⟩
  | remove =>
      exact ⟨origin, pairs, inv.keep accounts rfl rfl (fun _ => timesReported_removed)
        (fun _ _ => SyncMap.load_of_load_delete) trivial⟩
  | prune =>
      exact ⟨origin, pairs, inv.keep accounts rfl rfl (fun _ => timesReported_pruned)
        (fun _ _ => SyncMap.load_of_load_delete) inv.current⟩

/-- Every step keeps all entries and latencies traced. -/
theorem step (inv : Traced pkts origin pairs s) {a : Action} (h : s.step a = some t) :
    ∃ origin' pairs', Traced (pkts ++ a.packet?.toList) origin' pairs' t := by
  cases a with
  | recv pkt =>
      have accounts := inv.accounts.step h
      cases step_sound h with
      | unknown idle => exact ⟨origin, pairs, inv.append idle pkt⟩
      | get idle protocol => exact ⟨origin, pairs, inv.get idle protocol accounts⟩
  | consume | clock | visit | compare | delete | rangeEnd =>
      simpa only [Action.packet?, Option.toList_none, List.append_nil] using
        inv.step_of_no_packet h rfl

end Traced

/-- After every run, all entries and latencies are traced. -/
theorem run_traced {as : List Action} {t : System}
    (run : Transition.run step start as = some t) :
    ∃ origin pairs, Traced (received as) origin pairs t := by
  have keep : ∀ (done : List Action) (s : System) (a : Action) (t : System),
      (∃ origin pairs, Traced (received done) origin pairs s) → s.step a = some t →
        ∃ origin pairs, Traced (received (done ++ [a])) origin pairs t := by
    intro done s a t inv h
    obtain ⟨origin, pairs, traced⟩ := inv
    rw [received_snoc]
    exact traced.step h
  have first : ∃ origin pairs, Traced (received []) origin pairs start :=
    ⟨fun n => n, [], Traced.start⟩
  exact Transition.run_invariant_history keep first run

/-- Whatever the interleaving, every latency is measured from an earlier packet to a later
one, and no packet is used twice. -/
theorem run_matched {as : List Action} {t : System}
    (run : Transition.run step start as = some t) :
    ∃ pairs, Matching (Measured (received as)) t.reports pairs := by
  obtain ⟨origin, pairs, traced⟩ := run_traced run
  exact ⟨pairs, traced.matching⟩

/-- The latency of an entry that `Prune` has deleted meanwhile. -/
theorem prunedWhileRead_matched :
    ∃ t, Transition.run step start prunedWhileRead = some t ∧
      ∃ pairs, Matching (Measured (received prunedWhileRead)) t.reports pairs :=
  ⟨(Transition.run step start prunedWhileRead).get (by decide +kernel),
    (Option.some_get _).symm, run_matched (Option.some_get _).symm⟩

end System

end Xcnf.Flow
