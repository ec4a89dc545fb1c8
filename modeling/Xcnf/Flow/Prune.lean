import Xcnf.Flow.Interleaving

/-!
# What `Prune` deletes

`Prune` judges a pair and then deletes its key, whatever is stored under the key by
then. Between the two the consumer can answer the flow, remove its entry and open the
flow again, and the new entry is deleted in place of the old one. As long as no new
timestamp is stored under a key that is condemned, every entry deleted is the pair that
was judged.
-/

namespace Xcnf.Flow

/-- What `Prune` took out of the table is the pair it judged. -/
def Event.AsJudged : Event → Prop
  | .pruned _ judged (some gone) _ => gone.timestamp = judged.timestamp
  | _ => True

instance : DecidablePred Event.AsJudged
  | .inserted _ _ | .reported _ _ | .removed _ _ | .pruned _ _ none _ => .isTrue trivial
  | .pruned _ judged (some gone) _ =>
      inferInstanceAs (Decidable (gone.timestamp = judged.timestamp))

/-- The pair that `Prune` has loaded and will delete the key of. -/
def Pruner.condemned : Pruner → Option (UInt64 × UInt64)
  | .visiting now _ hash entry =>
    if stale now entry.timestamp then some (hash, entry.timestamp) else none
  | .deleting _ _ hash entry => some (hash, entry.timestamp)
  | _ => none

namespace System

def PrunedAsJudged (s : System) : Prop := ∀ ev ∈ s.history, ev.AsJudged

instance (s : System) : Decidable s.PrunedAsJudged :=
  inferInstanceAs (Decidable (∀ ev ∈ s.history, ev.AsJudged))

/-- The pair that an action stores, if it is the store of `Insert`. -/
def storing (s : System) : Action → Option (UInt64 × UInt64)
  | .consume =>
    match s.consumer with
    | .got pkt proto none =>
      if pkt.syn ∨ proto = .udp then some (pkt.hash, pkt.timestamp) else none
    | _ => none
  | _ => none

/-- The action does not store another timestamp under a condemned key. -/
def SparesCondemned (s : System) (a : Action) : Prop :=
  ∀ old ∈ s.pruner.condemned, ∀ new ∈ s.storing a, new.1 = old.1 → new.2 = old.2

-- looks at the two options; pairs of words could also be enumerated
instance (s : System) (a : Action) : Decidable (s.SparesCondemned a) :=
  letI (old : UInt64 × UInt64) :
      Decidable (∀ new ∈ s.storing a, new.1 = old.1 → new.2 = old.2) :=
    Option.decidableForallMem _
  Option.decidableForallMem _

/-- A condemned key still holds the condemned pair, or nothing. -/
structure CondemnedKept (s : System) : Prop where
  kept : ∀ hash ts, s.pruner.condemned = some (hash, ts) →
    ∀ entry, s.table.load hash = some entry → entry.timestamp = ts
  asJudged : s.PrunedAsJudged

theorem CondemnedKept.start : CondemnedKept start := by
  refine ⟨?_, ?_⟩
  · intro hash ts h
    contradiction
  · intro ev hev
    contradiction

/-- Deletions and steps that are not `Insert` keep what a condemned key holds. -/
theorem CondemnedKept.step {s t : System} {a : Action} (inv : CondemnedKept s)
    (spares : s.SparesCondemned a) (h : s.step a = some t) : CondemnedKept t := by
  obtain ⟨kept, asJudged⟩ := inv
  have quiet (ev : Event) (hev : ev.AsJudged) : ∀ e ∈ ev :: s.history, e.AsJudged := by
    intro e he
    rcases List.mem_cons.mp he with rfl | he
    · exact hev
    · exact asJudged e he
  cases step_sound h with
  | unknown | get | ignore | keep | found | missing => exact ⟨kept, asJudged⟩
  | clock | fresh | rangeEnd => exact ⟨fun hash ts h => by contradiction, asJudged⟩
  | report => exact ⟨kept, quiet _ trivial⟩
  | @insert pkt proto hat opens =>
      refine ⟨?_, quiet _ trivial⟩
      intro hash ts hold entry hload
      have stores : s.storing .consume = some (pkt.hash, pkt.timestamp) := by
        simp only [storing, hat, if_pos opens]
      by_cases hk : hash = pkt.hash
      · subst hk
        rw [SyncMap.load_store_self, Option.some.injEq] at hload
        rw [← hload]
        exact spares _ hold _ stores rfl
      · rw [SyncMap.load_store_ne _ _ hk] at hload
        exact kept hash ts hold entry hload
  | remove =>
      refine ⟨?_, quiet _ trivial⟩
      intro hash ts hold entry hload
      exact kept hash ts hold entry (SyncMap.load_of_load_delete hload)
  | @visit now visited hash entry hat present =>
      refine ⟨?_, asJudged⟩
      intro hash' ts hold entry' hload
      simp only [Pruner.condemned] at hold
      split at hold
      · obtain ⟨rfl, rfl⟩ := Prod.mk.inj (Option.some.inj hold)
        rw [present] at hload
        exact congrArg Entry.timestamp (Option.some.inj hload).symm
      · contradiction
  | @condemn now visited hash entry hat old =>
      refine ⟨?_, asJudged⟩
      intro hash' ts hold
      apply kept
      rw [← hold, hat]
      simp only [Pruner.condemned, if_pos old]
  | @prune now visited hash entry hat =>
      refine ⟨fun hash ts h => by contradiction, quiet _ ?_⟩
      cases hload : s.table.load hash with
      | none => trivial
      | some gone => exact kept hash entry.timestamp (by rw [hat]; rfl) gone hload

/-- In every run that spares the condemned keys, every entry that `Prune` deletes is the
pair that it judged. -/
theorem pruned_as_judged {as : List Action} {t : System}
    (spares : Transition.Along step SparesCondemned start as)
    (run : Transition.run step start as = some t) : t.PrunedAsJudged :=
  (Transition.run_invariant_along (fun _ _ _ => CondemnedKept.step) CondemnedKept.start spares
    run).asJudged

/-! ## A flow reopened under a condemned key -/

/-- A connection attempt that is not answered for ten seconds, and the ticker after
twenty. -/
def unanswered : List Action :=
  let syn := lanPacket (1, 40000) (2, 443) 6 true false 1000000000
  [.recv syn, .consume, .clock 20000000000, .visit syn.hash, .compare]

/-- Its entry is deleted. -/
def unansweredPruned : List Action := unanswered ++ [.delete, .rangeEnd]

theorem unansweredPruned_as_judged :
    ((Transition.run step start unansweredPruned).get (by decide +kernel)).PrunedAsJudged :=
  pruned_as_judged (by decide +kernel) (Option.some_get _).symm

/-- The answer and the next attempt arrive before the deletion. -/
def reopened : List Action :=
  unanswered ++
    [.recv (lanPacket (2, 443) (1, 40000) 6 true true 20000001000),
      .consume, .consume, .consume,
      .recv (lanPacket (1, 40000) (2, 443) 6 true false 20000002000), .consume, .delete]

/-- The entry that is deleted is not a microsecond old. -/
theorem reopened_refutes_pruned_as_judged :
    ¬ ∀ (as : List Action) (t : System), Transition.run step start as = some t →
      t.PrunedAsJudged := by
  intro claimed
  have judged := claimed reopened ((Transition.run step start reopened).get (by decide +kernel))
    (Option.some_get _).symm
  exact absurd judged (by decide +kernel)

end System

end Xcnf.Flow
