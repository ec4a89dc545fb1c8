import Mathlib.Data.Finmap

/-!
# A map with atomic operations

The observable behaviour of Go's `sync.Map`: a finite map whose `load`, `store` and
`delete` are atomic. Maps are equal when they load alike, and each update is described
by what is loaded afterwards, so nothing outside this file looks at the representation.
-/

universe u v

structure SyncMap (K : Type u) (V : Type v) where
  entries : Finmap fun _ : K => V

namespace SyncMap

variable {K : Type u} {V : Type v} [DecidableEq K]

instance [DecidableEq V] : DecidableEq (SyncMap K V) := fun m n =>
  decidable_of_iff (m.entries = n.entries) ⟨fun h => congrArg mk h, fun h => congrArg entries h⟩

def empty : SyncMap K V := ⟨∅⟩

def load (m : SyncMap K V) (k : K) : Option V := m.entries.lookup k

def store (m : SyncMap K V) (k : K) (v : V) : SyncMap K V := ⟨m.entries.insert k v⟩

def delete (m : SyncMap K V) (k : K) : SyncMap K V := ⟨m.entries.erase k⟩

@[ext] theorem ext {m n : SyncMap K V} (h : ∀ k, m.load k = n.load k) : m = n := by
  cases m
  cases n
  exact congrArg mk (Finmap.ext_lookup h)

@[simp] theorem load_empty (k : K) : (empty : SyncMap K V).load k = none := Finmap.lookup_empty k

@[simp] theorem load_store_self (m : SyncMap K V) (k : K) (v : V) :
    (m.store k v).load k = some v := Finmap.lookup_insert m.entries

theorem load_store_ne (m : SyncMap K V) {k k' : K} (v : V) (h : k' ≠ k) :
    (m.store k v).load k' = m.load k' := Finmap.lookup_insert_of_ne m.entries h

@[simp] theorem load_delete_self (m : SyncMap K V) (k : K) : (m.delete k).load k = none :=
  Finmap.lookup_erase k m.entries

theorem load_delete_ne (m : SyncMap K V) {k k' : K} (h : k' ≠ k) :
    (m.delete k).load k' = m.load k' := Finmap.lookup_erase_ne h

/-- There is nothing to delete. -/
theorem delete_of_absent {m : SyncMap K V} {k : K} (absent : m.load k = none) :
    m.delete k = m := by
  apply ext
  intro k'
  by_cases hk : k' = k
  · rw [hk, load_delete_self, absent]
  · rw [load_delete_ne m hk]

/-- A deletion only takes away. -/
theorem load_of_load_delete {m : SyncMap K V} {k k' : K} {v : V}
    (h : (m.delete k).load k' = some v) : m.load k' = some v := by
  by_cases hk : k' = k
  · subst hk
    rw [load_delete_self] at h
    contradiction
  · rwa [load_delete_ne m hk] at h

/-! ## Walks

`Range` calls back for each key once, in an order of its own, until the callback returns
`false`. A walk is given here by the keys in the order of their turns.
-/

/-- The callback sees the value a key has when its turn comes, and may change the map. A
key that is gone by then is passed over. -/
def range (callback : SyncMap K V → K → V → SyncMap K V × Bool) :
    List K → SyncMap K V → SyncMap K V
  | [], m => m
  | k :: ks, m =>
      match m.load k with
      | none => range callback ks m
      | some v =>
          let (m', more) := callback m k v
          if more then range callback ks m' else m'

/-- The order visits every key of the map, and none twice. -/
structure Enumerates (order : List K) (m : SyncMap K V) : Prop where
  nodup : order.Nodup
  mem_iff : ∀ k, k ∈ order ↔ ∃ v, m.load k = some v

/-- A walk may begin with any key of the map. -/
theorem exists_enumerates_cons {m : SyncMap K V} {k : K} {v : V} (h : m.load k = some v) :
    ∃ ks, Enumerates (k :: ks) m := by
  have present (k' : K) : k' ∈ m.entries.keys ↔ ∃ v', m.load k' = some v' := by
    rw [Finmap.mem_keys, ← Finmap.lookup_isSome, Option.isSome_iff_exists]
    rfl
  refine ⟨(m.entries.keys.erase k).toList, ?_, ?_⟩
  · refine List.nodup_cons.mpr ⟨?_, Finset.nodup_toList _⟩
    rw [Finset.mem_toList]
    exact Finset.notMem_erase k _
  · intro k'
    rw [List.mem_cons, Finset.mem_toList, Finset.mem_erase, present]
    constructor
    · rintro (rfl | ⟨_, held⟩)
      · exact ⟨v, h⟩
      · exact held
    · intro held
      by_cases hk : k' = k
      · exact .inl hk
      · exact .inr ⟨hk, held⟩

/-- The callback that deletes the keys it is called for, up to the first one whose value
fails the test. -/
def deleteWhile (test : V → Bool) (m : SyncMap K V) (k : K) (v : V) : SyncMap K V × Bool :=
  if test v then (m.delete k, true) else (m, false)

/-- What `deleteWhile` deletes are the keys in front of the first value that fails. `passes`
is what the test says of the map before the walk. -/
theorem load_range_deleteWhile {test : V → Bool} {order : List K} (nodup : order.Nodup)
    {m : SyncMap K V} {passes : K → Bool}
    (hpasses : ∀ k ∈ order, passes k = (m.load k).all test) (k : K) :
    (range (deleteWhile test) order m).load k =
      if k ∈ order.takeWhile passes then none else m.load k := by
  induction order generalizing m with
  | nil => rfl
  | cons first ks ih =>
      obtain ⟨notin, nodup⟩ := List.nodup_cons.mp nodup
      have here := hpasses first List.mem_cons_self
      have later : ∀ k' ∈ ks, passes k' = (m.load k').all test :=
        fun k' hk' => hpasses k' (List.mem_cons_of_mem first hk')
      cases hload : m.load first with
      | none =>
          rw [hload] at here
          rw [List.takeWhile_cons_of_pos here, range, hload]
          simp only [ih nodup later, List.mem_cons]
          by_cases hk : k = first
          · simp [hk, hload]
          · simp [hk]
      | some v =>
          rw [hload, Option.all_some] at here
          cases htest : test v with
          | false =>
              have failed : ¬ passes first = true := by simp [here, htest]
              rw [List.takeWhile_cons_of_neg failed, range, hload]
              simp [deleteWhile, htest]
          | true =>
              have passed : passes first = true := here.trans htest
              have still : ∀ k' ∈ ks, passes k' = ((m.delete first).load k').all test := by
                intro k' hk'
                have hne : k' ≠ first := fun e => notin (e ▸ hk')
                rw [load_delete_ne m hne]
                exact later k' hk'
              rw [List.takeWhile_cons_of_pos passed, range, hload]
              simp only [deleteWhile, htest, if_true, ih nodup still, List.mem_cons]
              by_cases hk : k = first
              · simp [hk]
              · simp [hk, load_delete_ne m hk]

/-! ## Tagged values

Values that carry a tag, such as the number of the store that put them there, can be
followed through a run. A tag is held when some key holds a value with that tag.
-/

variable {T : Type*} (tag : V → T)

def Holds (m : SyncMap K V) (t : T) : Prop := ∃ k v, m.load k = some v ∧ tag v = t

/-- No tag is held under two keys. -/
def TagsDistinct (m : SyncMap K V) : Prop :=
  ∀ k k' v v', m.load k = some v → m.load k' = some v' → tag v = tag v' → k = k'

variable {tag} {m : SyncMap K V}

theorem not_holds_empty (t : T) : ¬ (empty : SyncMap K V).Holds tag t := by
  rintro ⟨k, v, h, _⟩
  rw [load_empty] at h
  contradiction

theorem tagsDistinct_empty : (empty : SyncMap K V).TagsDistinct tag := by
  intro k k' v v' h
  rw [load_empty] at h
  contradiction

/-- A store under a free key adds its tag to those held. -/
theorem holds_store {k : K} (free : m.load k = none) (v : V) (t : T) :
    (m.store k v).Holds tag t ↔ t = tag v ∨ m.Holds tag t := by
  constructor
  · rintro ⟨k', v', h, rfl⟩
    by_cases hk : k' = k
    · subst hk
      rw [load_store_self, Option.some.injEq] at h
      exact .inl (h ▸ rfl)
    · rw [load_store_ne m v hk] at h
      exact .inr ⟨k', v', h, rfl⟩
  · rintro (rfl | ⟨k', v', h, rfl⟩)
    · exact ⟨k, v, load_store_self m k v, rfl⟩
    · have hk : k' ≠ k := by
        rintro rfl
        rw [free] at h
        contradiction
      exact ⟨k', v', (load_store_ne m v hk).trans h, rfl⟩

theorem TagsDistinct.store (distinct : m.TagsDistinct tag) {k : K} {v : V}
    (new : ¬ m.Holds tag (tag v)) : (m.store k v).TagsDistinct tag := by
  intro k₁ k₂ v₁ v₂ h₁ h₂ same
  by_cases hk₁ : k₁ = k
  · by_cases hk₂ : k₂ = k
    · rw [hk₁, hk₂]
    · rw [hk₁, load_store_self, Option.some.injEq] at h₁
      rw [load_store_ne m v hk₂] at h₂
      exact absurd ⟨k₂, v₂, h₂, by rw [← same, ← h₁]⟩ new
  · rw [load_store_ne m v hk₁] at h₁
    by_cases hk₂ : k₂ = k
    · rw [hk₂, load_store_self, Option.some.injEq] at h₂
      exact absurd ⟨k₁, v₁, h₁, by rw [same, ← h₂]⟩ new
    · rw [load_store_ne m v hk₂] at h₂
      exact distinct k₁ k₂ v₁ v₂ h₁ h₂ same

/-- A deletion takes the tag of the deleted value and no other. -/
theorem TagsDistinct.holds_delete (distinct : m.TagsDistinct tag) (k : K) (t : T) :
    (m.delete k).Holds tag t ↔ m.Holds tag t ∧ ∀ v, m.load k = some v → tag v ≠ t := by
  constructor
  · rintro ⟨k', v', h, rfl⟩
    have before := load_of_load_delete h
    refine ⟨⟨k', v', before, rfl⟩, ?_⟩
    intro v hv same
    obtain rfl := distinct k k' v v' hv before same
    rw [load_delete_self] at h
    contradiction
  · rintro ⟨⟨k', v', h, rfl⟩, other⟩
    have hk : k' ≠ k := by
      rintro rfl
      exact other v' h rfl
    exact ⟨k', v', (load_delete_ne m hk).trans h, rfl⟩

theorem TagsDistinct.delete (distinct : m.TagsDistinct tag) (k : K) :
    (m.delete k).TagsDistinct tag :=
  fun k₁ k₂ v₁ v₂ h₁ h₂ =>
    distinct k₁ k₂ v₁ v₂ (load_of_load_delete h₁) (load_of_load_delete h₂)

end SyncMap
