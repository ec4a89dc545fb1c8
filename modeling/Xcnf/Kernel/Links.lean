import Mathlib.Data.Set.Basic
import Mathlib.Logic.Function.Basic

/-!
# Network links and the calls that change them

The kernel knows a link by its index, which is never given to another link, and by its
name, which no other link has at the same time. The two ends of a pair device are each
other's mates and disappear together. `Netlink` are the calls of the netlink library,
which is not part of this development, with everything that other processes may do
meanwhile; `Netlink.Lawful` is what its documentation promises.
-/

namespace Xcnf

structure Link where
  name : String
  /-- The other end of a pair device. -/
  mate : Option Nat
  up : Bool
  deriving DecidableEq

/-- The links by their indices, and the indices given out so far. -/
structure LinkView where
  links : Nat → Option Link
  used : Set Nat

namespace LinkView

structure WellFormed (v : LinkView) : Prop where
  positive : 0 ∉ v.used
  used : ∀ i l, v.links i = some l → i ∈ v.used
  unique : ∀ i j l m, v.links i = some l → v.links j = some m → l.name = m.name → i = j
  mates : ∀ i j l, v.links i = some l → l.mate = some j →
    ∃ m, v.links j = some m ∧ m.mate = some i

/-- What time does to the links: an index that was given out is not given to another link. -/
structure Evolves (v w : LinkView) : Prop where
  used : v.used ⊆ w.used
  same : ∀ i m, i ∈ v.used → w.links i = some m →
    ∃ l, v.links i = some l ∧ l.name = m.name ∧ l.mate = m.mate

variable {v w : LinkView} {i j : Nat}

theorem Evolves.refl (v : LinkView) : v.Evolves v :=
  ⟨subset_rfl, fun _ m _ hm => ⟨m, hm, rfl, rfl⟩⟩

theorem Evolves.trans {x : LinkView} (h : v.Evolves w) (later : w.Evolves x) : v.Evolves x where
  used := h.used.trans later.used
  same := by
    intro k m used hm
    obtain ⟨l, hl, name, mate⟩ := later.same k m (h.used used) hm
    obtain ⟨l', hl', name', mate'⟩ := h.same k l used hl
    exact ⟨l', hl', name'.trans name, mate'.trans mate⟩

/-- A link that is gone stays away. -/
theorem Evolves.absent (h : v.Evolves w) (used : i ∈ v.used) (gone : v.links i = none) :
    w.links i = none := by
  cases hw : w.links i with
  | none => rfl
  | some m =>
      obtain ⟨l, hl, _⟩ := h.same i m used hw
      rw [gone] at hl
      contradiction

/-- The two indices of a pair device, which may be gone. -/
structure Coupled (v : LinkView) (i j : Nat) : Prop where
  usedLeft : i ∈ v.used
  usedRight : j ∈ v.used
  left : ∀ l, v.links i = some l → l.mate = some j
  right : ∀ l, v.links j = some l → l.mate = some i

theorem Coupled.evolves (h : v.Coupled i j) (time : v.Evolves w) : w.Coupled i j where
  usedLeft := time.used h.usedLeft
  usedRight := time.used h.usedRight
  left := by
    intro m hm
    obtain ⟨l, hl, _, mate⟩ := time.same i m h.usedLeft hm
    rw [← mate, h.left l hl]
  right := by
    intro m hm
    obtain ⟨l, hl, _, mate⟩ := time.same j m h.usedRight hm
    rw [← mate, h.right l hl]

/-- The ends of a pair device are there together. -/
theorem Coupled.absent (h : v.Coupled i j) (wf : v.WellFormed) (gone : v.links i = none) :
    v.links j = none := by
  cases hj : v.links j with
  | none => rfl
  | some l =>
      obtain ⟨m, hm, _⟩ := wf.mates j i l hj (h.right l hj)
      rw [gone] at hm
      contradiction

end LinkView

/-! ## The netlink library -/

inductive NetkitMode where
  | l2
  | l3
  deriving DecidableEq

inductive NetkitScrub where
  | none
  | default
  deriving DecidableEq

/-- The attributes that identify a link; the index is 0 until it is known. -/
structure LinkAttrs where
  name : String
  index : Nat
  deriving DecidableEq

/-- `netlink.Netkit`. -/
structure NetkitLink where
  attrs : LinkAttrs
  mode : NetkitMode
  scrub : NetkitScrub
  peerScrub : NetkitScrub
  peerAttrs : LinkAttrs
  deriving DecidableEq

inductive NetlinkError where
  | errno (code : Nat)
  | other (text : String)
  deriving DecidableEq

def enodev : Nat := 19

universe u v

/-- The calls, over the states `σ` of the system; `ε` is what other processes do. -/
structure Netlink (σ : Type u) (ε : Type v) where
  view : σ → LinkView
  /-- `LinkAdd`, with the index that it fills in. -/
  linkAdd : NetkitLink → σ → Except NetlinkError Nat × σ
  linkByName : String → σ → Except NetlinkError LinkAttrs
  /-- `LinkSetUp`; `none` is the nil error. -/
  linkSetUp : LinkAttrs → σ → Option NetlinkError × σ
  linkDel : LinkAttrs → σ → Option NetlinkError × σ
  others : ε → σ → σ

/-- `LinkDel` looks an index of 0 up by name first; its laws here are for known indices. -/
structure Netlink.Lawful {σ : Type u} {ε : Type v} (nl : Netlink σ ε) : Prop where
  wellFormed : ∀ s, (nl.view s).WellFormed
  linkAdd : ∀ dev s, (nl.view s).Evolves (nl.view (nl.linkAdd dev s).2)
  linkAdd_ok : ∀ dev s i s', nl.linkAdd dev s = (.ok i, s') →
    ∃ j, i ∉ (nl.view s).used ∧ j ∉ (nl.view s).used ∧
      (nl.view s').links i = some ⟨dev.attrs.name, some j, false⟩ ∧
      (nl.view s').links j = some ⟨dev.peerAttrs.name, some i, false⟩
  linkByName_ok : ∀ name s a, nl.linkByName name s = .ok a →
    ∃ l, (nl.view s).links a.index = some l ∧ l.name = name
  linkSetUp : ∀ a s, (nl.view s).Evolves (nl.view (nl.linkSetUp a s).2)
  linkSetUp_absent : ∀ a s, a.index ≠ 0 → (nl.view s).links a.index = none →
    (nl.linkSetUp a s).1 ≠ none
  linkDel : ∀ a s, (nl.view s).Evolves (nl.view (nl.linkDel a s).2)
  linkDel_present : ∀ a s l, (nl.view s).links a.index = some l →
    (nl.linkDel a s).1 = none ∧ ∀ k, (nl.view (nl.linkDel a s).2).links k =
      if k = a.index ∨ l.mate = some k then none else (nl.view s).links k
  linkDel_absent : ∀ a s, a.index ≠ 0 → (nl.view s).links a.index = none →
    (nl.linkDel a s).1 = some (.errno enodev) ∧
      (nl.view (nl.linkDel a s).2).links = (nl.view s).links
  others : ∀ e s, (nl.view s).Evolves (nl.view (nl.others e s))

/-! ## A table of links that keeps the laws -/

/-- Indices are given out in order and only pair devices are made. -/
structure LinkTable where
  links : Nat → Option Link
  next : Nat
  wellFormed : LinkView.WellFormed ⟨links, {i | 0 < i ∧ i < next}⟩

namespace LinkTable

def view (t : LinkTable) : LinkView := ⟨t.links, {i | 0 < i ∧ i < t.next}⟩

def empty : LinkTable where
  links := fun _ => none
  next := 1
  wellFormed := ⟨by simp, by simp, by simp, by simp⟩

theorem mates (t : LinkTable) {i j : Nat} {l : Link} (hl : t.links i = some l)
    (mate : l.mate = some j) : ∃ m, t.links j = some m ∧ m.mate = some i :=
  t.wellFormed.mates i j l hl mate

/-- The index of the link with this name. -/
def find (t : LinkTable) (name : String) : Option Nat :=
  (List.range t.next).find? fun i => (t.links i).any fun l => l.name = name

variable {t : LinkTable} {name : String} {i : Nat}

theorem find_eq_none (h : t.find name = none) {l : Link} (hl : t.links i = some l) :
    l.name ≠ name := by
  have below : i < t.next := (t.wellFormed.used i l hl).2
  have no := List.find?_eq_none.mp h i (List.mem_range.mpr below)
  simpa [hl] using no

theorem find_eq_some (h : t.find name = some i) : ∃ l, t.links i = some l ∧ l.name = name := by
  have yes := List.find?_some h
  cases hl : t.links i with
  | none => simp [hl] at yes
  | some l => exact ⟨l, rfl, by simpa [hl] using yes⟩

/-- Two names that can be given to the ends of a new device. -/
def Free (t : LinkTable) (name peer : String) : Prop :=
  t.find name = none ∧ t.find peer = none ∧ name ≠ peer

instance (t : LinkTable) (name peer : String) : Decidable (t.Free name peer) :=
  inferInstanceAs (Decidable (_ ∧ _))

/-- The links with a new device. -/
def withPair (t : LinkTable) (name peer : String) (k : Nat) : Option Link :=
  if k = t.next + 1 then some ⟨name, some (t.next + 2), false⟩
  else if k = t.next + 2 then some ⟨peer, some (t.next + 1), false⟩
  else t.links k

theorem withPair_cases {peer : String} {k : Nat} {l : Link} (h : t.withPair name peer k = some l) :
    k = t.next + 1 ∧ l = ⟨name, some (t.next + 2), false⟩ ∨
      k = t.next + 2 ∧ l = ⟨peer, some (t.next + 1), false⟩ ∨ k < t.next ∧ t.links k = some l := by
  simp only [withPair] at h
  split at h
  · exact .inl ⟨‹_›, (Option.some.inj h).symm⟩
  · split at h
    · exact .inr (.inl ⟨‹_›, (Option.some.inj h).symm⟩)
    · exact .inr (.inr ⟨(t.wellFormed.used k l h).2, h⟩)

theorem withPair_old {peer : String} {k : Nat} (h : k < t.next) :
    t.withPair name peer k = t.links k := by
  rw [withPair, if_neg (by omega), if_neg (by omega)]

def addPair (t : LinkTable) (name peer : String) (free : t.Free name peer) : LinkTable where
  links := t.withPair name peer
  next := t.next + 3
  wellFormed := by
    have left : t.withPair name peer (t.next + 1) = some ⟨name, some (t.next + 2), false⟩ :=
      if_pos rfl
    have right : t.withPair name peer (t.next + 2) = some ⟨peer, some (t.next + 1), false⟩ := by
      rw [withPair, if_neg (by omega), if_pos rfl]
    refine ⟨by simp, ?_, ?_, ?_⟩
    · intro k l hl
      rcases withPair_cases hl with ⟨rfl, _⟩ | ⟨rfl, _⟩ | ⟨below, old⟩
      · exact ⟨by omega, by omega⟩
      · exact ⟨by omega, by omega⟩
      · exact ⟨(t.wellFormed.used k l old).1, by omega⟩
    · intro k k' l m hl hm same
      rcases withPair_cases hl with ⟨rfl, rfl⟩ | ⟨rfl, rfl⟩ | ⟨_, old⟩ <;>
        rcases withPair_cases hm with ⟨rfl, rfl⟩ | ⟨rfl, rfl⟩ | ⟨_, old'⟩
      · rfl
      · exact absurd same free.2.2
      · exact absurd same.symm (find_eq_none free.1 old')
      · exact absurd same.symm free.2.2
      · rfl
      · exact absurd same.symm (find_eq_none free.2.1 old')
      · exact absurd same (find_eq_none free.1 old)
      · exact absurd same (find_eq_none free.2.1 old)
      · exact t.wellFormed.unique k k' l m old old' same
    · intro k k' l hl mate
      rcases withPair_cases hl with ⟨rfl, rfl⟩ | ⟨rfl, rfl⟩ | ⟨_, old⟩
      · obtain rfl : t.next + 2 = k' := Option.some.inj mate
        exact ⟨_, right, rfl⟩
      · obtain rfl : t.next + 1 = k' := Option.some.inj mate
        exact ⟨_, left, rfl⟩
      · obtain ⟨m, hm, back⟩ := t.mates old mate
        exact ⟨m, (withPair_old (t.wellFormed.used k' m hm).2).trans hm, back⟩

/-- The links without a device. -/
def without (t : LinkTable) (i k : Nat) : Option Link :=
  if k = i ∨ (t.links i).bind Link.mate = some k then none else t.links k

theorem without_eq_some {k : Nat} {l : Link} (h : t.without i k = some l) :
    t.links k = some l ∧ k ≠ i ∧ (t.links i).bind Link.mate ≠ some k := by
  simp only [without] at h
  split at h
  · contradiction
  · exact ⟨h, not_or.mp ‹_›⟩

def remove (t : LinkTable) (i : Nat) : LinkTable where
  links := t.without i
  next := t.next
  wellFormed := by
    refine ⟨t.wellFormed.positive, ?_, ?_, ?_⟩
    · exact fun k l hl => t.wellFormed.used k l (without_eq_some hl).1
    · exact fun k k' l m hl hm =>
        t.wellFormed.unique k k' l m (without_eq_some hl).1 (without_eq_some hm).1
    · intro k k' l hl mate
      obtain ⟨old, ne, notMate⟩ := without_eq_some hl
      obtain ⟨m, hm, back⟩ := t.mates old mate
      refine ⟨m, ?_, back⟩
      -- the other end of what stays is not the device that goes
      have kept : ¬ (k' = i ∨ (t.links i).bind Link.mate = some k') := by
        rintro (rfl | other)
        · exact notMate (by rw [hm]; exact back)
        · cases hi : t.links i with
          | none => simp [hi] at other
          | some d =>
              rw [hi] at other
              obtain ⟨m', hm', back'⟩ := t.mates hi other
              obtain rfl : m = m' := Option.some.inj (hm.symm.trans hm')
              exact ne (Option.some.inj (back.symm.trans back'))
      change t.without i k' = some m
      rw [without, if_neg kept, hm]

def setUp (t : LinkTable) (i : Nat) : LinkTable where
  links := fun k => (t.links k).map fun l => if k = i then { l with up := true } else l
  next := t.next
  wellFormed := by
    have old {k : Nat} {l : Link}
        (h : (t.links k).map (fun l => if k = i then { l with up := true } else l) = some l) :
        ∃ m, t.links k = some m ∧ m.name = l.name ∧ m.mate = l.mate := by
      obtain ⟨m, hm, rfl⟩ := Option.map_eq_some_iff.mp h
      refine ⟨m, hm, ?_⟩
      split <;> exact ⟨rfl, rfl⟩
    refine ⟨t.wellFormed.positive, ?_, ?_, ?_⟩
    · intro k l hl
      obtain ⟨m, hm, _⟩ := old hl
      exact t.wellFormed.used k m hm
    · intro k k' l l' hl hl' same
      obtain ⟨m, hm, name, _⟩ := old hl
      obtain ⟨m', hm', name', _⟩ := old hl'
      exact t.wellFormed.unique k k' m m' hm hm' (by rw [name, name', same])
    · intro k k' l hl mate
      obtain ⟨m, hm, _, same⟩ := old hl
      obtain ⟨m', hm', back⟩ := t.mates hm (same.trans mate)
      refine ⟨_, congrArg (Option.map _) hm', ?_⟩
      split <;> exact back

/-- What another process can do to the table. -/
inductive Event where
  | addPair (name peer : String)
  | remove (i : Nat)

def netlink : Netlink LinkTable Event where
  view := view
  linkAdd := fun dev t =>
    if free : t.Free dev.attrs.name dev.peerAttrs.name then
      (.ok (t.next + 1), t.addPair dev.attrs.name dev.peerAttrs.name free)
    else
      (.error (.errno 17), t)
  linkByName := fun name t =>
    match t.find name with
    | some i => .ok ⟨name, i⟩
    | none => .error (.other "Link not found")
  linkSetUp := fun a t =>
    if (t.links a.index).isSome then (none, t.setUp a.index) else (some (.errno enodev), t)
  linkDel := fun a t =>
    if (t.links a.index).isSome then (none, t.remove a.index) else (some (.errno enodev), t)
  others := fun e t =>
    match e with
    | .addPair name peer =>
      if free : t.Free name peer then t.addPair name peer free else t
    | .remove i => t.remove i

theorem addPair_evolves (t : LinkTable) (name peer : String) (free : t.Free name peer) :
    t.view.Evolves (t.addPair name peer free).view where
  used := fun _ hk => ⟨hk.1, Nat.lt_add_right 3 hk.2⟩
  same := fun _ m hk hm => ⟨m, (withPair_old hk.2).symm.trans hm, rfl, rfl⟩

theorem remove_evolves (t : LinkTable) (i : Nat) : t.view.Evolves (t.remove i).view where
  used := subset_rfl
  same := fun _ m _ hm => ⟨m, (without_eq_some hm).1, rfl, rfl⟩

theorem setUp_evolves (t : LinkTable) (i : Nat) : t.view.Evolves (t.setUp i).view where
  used := subset_rfl
  same := by
    intro k m _ hm
    obtain ⟨l, hl, rfl⟩ := Option.map_eq_some_iff.mp hm
    refine ⟨l, hl, ?_⟩
    split <;> exact ⟨rfl, rfl⟩

theorem netlink_lawful : netlink.Lawful where
  wellFormed := fun t => t.wellFormed
  linkAdd := by
    intro dev t
    simp only [netlink]
    split
    next free => exact addPair_evolves t _ _ free
    next => exact .refl t.view
  linkAdd_ok := by
    intro dev t i t' h
    simp only [netlink] at h
    split at h
    · simp only [Prod.mk.injEq, Except.ok.injEq] at h
      obtain ⟨rfl, rfl⟩ := h
      refine ⟨t.next + 2, fun h => ?_, fun h => ?_, if_pos rfl, ?_⟩
      · exact absurd h.2 (by omega)
      · exact absurd h.2 (by omega)
      · exact (if_neg (by omega)).trans (if_pos rfl)
    · simp at h
  linkByName_ok := by
    intro name t a h
    simp only [netlink] at h
    split at h
    next i found =>
      rw [← Except.ok.inj h]
      exact find_eq_some found
    next => contradiction
  linkSetUp := by
    intro a t
    simp only [netlink]
    split
    · exact setUp_evolves t a.index
    · exact .refl t.view
  linkSetUp_absent := by
    intro a t _ gone
    have gone : t.links a.index = none := gone
    simp [netlink, gone]
  linkDel := by
    intro a t
    simp only [netlink]
    split
    · exact remove_evolves t a.index
    · exact .refl t.view
  linkDel_present := by
    intro a t l present
    have present : t.links a.index = some l := present
    simp only [netlink, present, Option.isSome_some, if_true, true_and]
    intro k
    change t.without a.index k = _
    rw [without, present]
    rfl
  linkDel_absent := by
    intro a t _ gone
    have gone : t.links a.index = none := gone
    simp [netlink, gone]
  others := by
    intro e t
    cases e with
    | addPair name peer =>
        simp only [netlink]
        split
        next free => exact addPair_evolves t name peer free
        next => exact .refl t.view
    | remove i => exact remove_evolves t i

end LinkTable

end Xcnf
