import Xcnf.Lib.SyncMap

/-!
# The flow table

A `FlowTable` is a `sync.Map` from flow hashes to the timestamps of the packets that
opened them. The methods are given here as they run without interference; `Remove` and
the callback of `Prune` are sequences of map operations, which the interleaved system
takes one at a time. The order in which `Range` visits the keys is left to the caller.
-/

namespace Xcnf.Flow

abbrev FlowTable := SyncMap UInt64 UInt64

namespace FlowTable

/-- `Insert`. -/
def insert (table : FlowTable) (hash timestamp : UInt64) : FlowTable := table.store hash timestamp

/-- `Get`. -/
def get (table : FlowTable) (hash : UInt64) : Option UInt64 := table.load hash

/-- `Remove`: load, then delete what was found, or log that there was nothing. -/
def remove (table : FlowTable) (hash : UInt64) : FlowTable :=
  match table.load hash with
  | some _ => table.delete hash
  | none => table

end FlowTable

/-- The test of `Prune` on one entry, in the machine's unsigned arithmetic. -/
def stale (now timestamp : UInt64) : Bool := (now - timestamp) / 1000000 > 10000

/-- `GetNanosecSeinceBoot`, from the seconds and nanoseconds that `ClockGettime` reads;
`none` is its error. -/
def getNanosecSeinceBoot : Option (Int64 × Int64) → UInt64
  | none => 0
  | some (sec, nsec) =>
    let seconds := sec * 1000000000
    let nanoseconds := nsec + seconds
    nanoseconds.toUInt64

namespace FlowTable

/-- `Prune` once it has read the clock. The callback returns `false` for an entry that it
keeps, which ends the walk. -/
def pruneAt (now : UInt64) (order : List UInt64) (table : FlowTable) : FlowTable :=
  table.range
    (fun table hash timestamp =>
      if stale now timestamp then
        (table.delete hash, true)
      else
        (table, false))
    order

/-- `Prune`. -/
def prune (clock : Option (Int64 × Int64)) (order : List UInt64) (table : FlowTable) : FlowTable :=
  table.pruneAt (getNanosecSeinceBoot clock) order

@[simp] theorem get_empty (hash : UInt64) : get SyncMap.empty hash = none := SyncMap.load_empty hash

@[simp] theorem get_insert_self (table : FlowTable) (hash ts : UInt64) :
    (table.insert hash ts).get hash = some ts := SyncMap.load_store_self table hash ts

theorem get_insert_ne (table : FlowTable) {hash hash' : UInt64} (ts : UInt64) (h : hash' ≠ hash) :
    (table.insert hash ts).get hash' = table.get hash' := SyncMap.load_store_ne table ts h

/-- With no other goroutine in between, `Remove` is the deletion. -/
theorem remove_eq_delete (table : FlowTable) (hash : UInt64) :
    table.remove hash = table.delete hash := by
  cases h : table.load hash with
  | some ts => simp only [remove, h]
  | none =>
      simp only [remove, h]
      apply SyncMap.ext
      intro k
      by_cases hk : k = hash
      · rw [hk, h, SyncMap.load_delete_self]
      · rw [SyncMap.load_delete_ne table hk]

@[simp] theorem get_remove_self (table : FlowTable) (hash : UInt64) :
    (table.remove hash).get hash = none := by
  rw [remove_eq_delete, get, SyncMap.load_delete_self]

theorem get_remove_ne (table : FlowTable) {hash hash' : UInt64} (h : hash' ≠ hash) :
    (table.remove hash).get hash' = table.get hash' := by
  rw [remove_eq_delete, get, get, SyncMap.load_delete_ne table h]

end FlowTable

end Xcnf.Flow
