import Xcnf.Lib.Transition
import Xcnf.Kernel.Links

/-!
# Netkit pairs and who owns them

`createPair` makes a netkit device, which has two ends, and brings both up; `Pair.delete`
deletes the first end, and the kernel the other one with it. A `Client` calls the two any
number of times, and between any two calls of the netlink library other processes may
create and delete links. Names can be taken again at any time, so what ties a pair to its
links is their indices: `OwnsLinks` holds in every state that is reached.
-/

namespace Xcnf.Netkit

/-! ## Options -/

structure Config where
  mode : NetkitMode
  scrubPrimary : NetkitScrub
  scrubPeer : NetkitScrub
  deriving DecidableEq

/-- `Option`, a change of the configuration. -/
abbrev PairOption := Config → Config

def defaultConfig : Config where
  mode := .l3
  scrubPrimary := .none
  scrubPeer := .none

def withL2Mode : PairOption := fun c => { c with mode := .l2 }

def withL3Mode : PairOption := fun c => { c with mode := .l3 }

def withNoScrub : PairOption := fun c => { c with scrubPrimary := .none, scrubPeer := .none }

/-! ## Pairs -/

/-- A pair as the caller sees it, whose links may be nil. -/
structure Pair where
  primary : Option LinkAttrs
  peer : Option LinkAttrs
  primaryIdx : Nat
  peerIdx : Nat
  deriving DecidableEq

/-- The errors of `CreatePair`, with the values in their texts. -/
inductive CreateError where
  /-- `netkit: device name cannot be empty`. -/
  | emptyName
  /-- `netkit: failed to create primary %q: %w`. -/
  | createPrimary (name : String) (err : NetlinkError)
  /-- `netkit: failed to find peer %q: %w`. -/
  | findPeer (peerName : String) (err : NetlinkError)
  /-- `netkit: failed to bring up primary: %w`. -/
  | bringUpPrimary (err : NetlinkError)
  /-- `netkit: failed to bring up peer: %w`. -/
  | bringUpPeer (err : NetlinkError)
  deriving DecidableEq

/-- The error of `Delete`: `netkit: failed to delete: %w`. -/
inductive DeleteError where
  | delete (err : NetlinkError)
  deriving DecidableEq

/-- The link that `CreatePair` asks for. -/
def netkitLink (name : String) (opts : List PairOption) : NetkitLink :=
  let cfg := opts.foldl (fun cfg opt => opt cfg) defaultConfig
  { attrs := ⟨name, 0⟩
    mode := cfg.mode
    scrub := cfg.scrubPrimary
    peerScrub := cfg.scrubPeer
    peerAttrs := ⟨name ++ "p", 0⟩ }

theorem netkitLink_name (name : String) (opts : List PairOption) :
    (netkitLink name opts).attrs.name = name := rfl

universe u v

variable {σ : Type u} {ε : Type v} (nl : Netlink σ ε)

/-- `CreatePair`, with no other process at work. -/
def createPair (name : String) (opts : List PairOption) (s : σ) : Except CreateError Pair × σ :=
  if name = "" then
    (.error .emptyName, s)
  else
    let link := netkitLink name opts
    match nl.linkAdd link s with
    | (.error err, s) => (.error (.createPrimary name err), s)
    | (.ok index, s) =>
      let primary : LinkAttrs := ⟨name, index⟩
      -- the deferred cleanup
      let cleanup := fun (s : σ) => (nl.linkDel primary s).2
      match nl.linkByName link.peerAttrs.name s with
      | .error err => (.error (.findPeer link.peerAttrs.name err), cleanup s)
      | .ok peer =>
        match nl.linkSetUp primary s with
        | (some err, s) => (.error (.bringUpPrimary err), cleanup s)
        | (none, s) =>
          match nl.linkSetUp peer s with
          | (some err, s) => (.error (.bringUpPeer err), cleanup s)
          | (none, s) =>
            (.ok
              { primary := some primary
                peer := some peer
                primaryIdx := primary.index
                peerIdx := peer.index }, s)

/-- `Delete`; `none` for the receiver is the nil pointer. -/
def Pair.delete (p : Option Pair) (s : σ) : Option DeleteError × σ :=
  match p.bind Pair.primary with
  | none => (none, s)
  | some primary =>
    match nl.linkDel primary s with
    | (none, s) => (none, s)
    | (some err, s) => if err = .errno enodev then (none, s) else (some (.delete err), s)

/-! ## A client among other processes -/

/-- Where a call of `CreatePair` is: the netlink call that comes next. -/
inductive Creating where
  | add (link : NetkitLink)
  | findPeer (primary : LinkAttrs) (peerName : String)
  | bringUpPrimary (primary peer : LinkAttrs)
  | bringUpPeer (primary peer : LinkAttrs)
  /-- The deferred `LinkDel`, before the error is returned. -/
  | cleanup (primary : LinkAttrs) (err : CreateError)
  deriving DecidableEq

structure Client (σ : Type u) where
  system : σ
  creating : Option Creating
  /-- What the calls of `CreatePair` have returned, latest first. -/
  returned : List (Except CreateError Pair)

namespace Client

/-- The pairs returned so far. -/
def pairs (s : Client σ) : List Pair := s.returned.filterMap Except.toOption

def start (s : σ) : Client σ where
  system := s
  creating := none
  returned := []

inductive Action (ε : Type v) where
  /-- Another process does something. -/
  | others (e : ε)
  /-- `CreatePair` is called. -/
  | create (name : String) (opts : List PairOption)
  /-- It makes its next netlink call. -/
  | next
  /-- `Delete` is called on a pair. -/
  | delete (k : Nat)

/-- The next netlink call of `CreatePair`. -/
def advance (s : Client σ) : Creating → Client σ
  | .add link =>
    match nl.linkAdd link s.system with
    | (.error err, system) =>
      { system := system
        creating := none
        returned := .error (.createPrimary link.attrs.name err) :: s.returned }
    | (.ok index, system) =>
      { s with
        system := system
        creating := some (.findPeer ⟨link.attrs.name, index⟩ link.peerAttrs.name) }
  | .findPeer primary peerName =>
    match nl.linkByName peerName s.system with
    | .error err => { s with creating := some (.cleanup primary (.findPeer peerName err)) }
    | .ok peer => { s with creating := some (.bringUpPrimary primary peer) }
  | .bringUpPrimary primary peer =>
    match nl.linkSetUp primary s.system with
    | (some err, system) =>
      { s with
        system := system
        creating := some (.cleanup primary (.bringUpPrimary err)) }
    | (none, system) =>
      { s with
        system := system
        creating := some (.bringUpPeer primary peer) }
  | .bringUpPeer primary peer =>
    match nl.linkSetUp peer s.system with
    | (some err, system) =>
      { s with
        system := system
        creating := some (.cleanup primary (.bringUpPeer err)) }
    | (none, system) =>
      { system := system
        creating := none
        returned := .ok
          { primary := some primary
            peer := some peer
            primaryIdx := primary.index
            peerIdx := peer.index } :: s.returned }
  | .cleanup primary err =>
    { system := (nl.linkDel primary s.system).2
      creating := none
      returned := .error err :: s.returned }

def step (s : Client σ) : Action ε → Option (Client σ)
  | .others e => some { s with system := nl.others e s.system }
  | .create name opts =>
    match s.creating with
    | some _ => none
    | none =>
      if name = "" then
        some { s with returned := .error .emptyName :: s.returned }
      else
        some { s with creating := some (.add (netkitLink name opts)) }
  | .next =>
    match s.creating with
    | none => none
    | some c => some (s.advance nl c)
  | .delete k =>
    match s.pairs[k]? with
    | none => none
    | some p => some { s with system := (Pair.delete nl (some p) s.system).2 }

/-! ## Who owns which links -/

end Client

/-- The links of a pair. -/
def Pair.Owns (p : Pair) (i : Nat) : Prop := i = p.primaryIdx ∨ i = p.peerIdx

instance (p : Pair) (i : Nat) : Decidable (p.Owns i) := inferInstanceAs (Decidable (_ ∨ _))

/-- Different pairs have different links; deleting a pair deletes those of its own links
that still exist and no other, and returns nil. -/
structure OwnsLinks (s : Client σ) : Prop where
  disjoint : s.pairs.Pairwise fun p q => ∀ i, p.Owns i → ¬ q.Owns i
  deletes : ∀ p ∈ s.pairs, ∀ i, (nl.view (Pair.delete nl (some p) s.system).2).links i =
    if p.Owns i then none else (nl.view s.system).links i
  returnsNil : ∀ p ∈ s.pairs, (Pair.delete nl (some p) s.system).1 = none

/-- The pair's links are the ends of one device, by their indices. -/
structure Pair.Bound (v : LinkView) (p : Pair) : Prop where
  primary : ∃ a, p.primary = some a ∧ a.index = p.primaryIdx
  coupled : v.Coupled p.primaryIdx p.peerIdx

/-- A device that belongs to no pair yet. -/
structure Unowned (v : LinkView) (pairs : List Pair) (i j : Nat) : Prop where
  coupled : v.Coupled i j
  left : ∀ p ∈ pairs, ¬ p.Owns i
  right : ∀ p ∈ pairs, ¬ p.Owns j

/-- What a call of `CreatePair` knows between its netlink calls. As long as the primary
link exists its other end does, under the name it was created with. -/
def Creating.Consistent (v : LinkView) (pairs : List Pair) : Creating → Prop
  | .add _ | .cleanup _ _ => True
  | .findPeer primary peerName =>
    ∃ j, Unowned v pairs primary.index j ∧ ∀ l, v.links j = some l → l.name = peerName
  | .bringUpPrimary primary peer =>
    ∃ j, Unowned v pairs primary.index j ∧ (peer.index = j ∨ v.links primary.index = none)
  | .bringUpPeer primary peer => Unowned v pairs primary.index peer.index

/-- The invariant of a client. -/
structure Owning (v : LinkView) (pairs : List Pair) (creating : Option Creating) : Prop where
  bound : ∀ p ∈ pairs, p.Bound v
  disjoint : pairs.Pairwise fun p q => ∀ i, p.Owns i → ¬ q.Owns i
  creating : ∀ c ∈ creating, c.Consistent v pairs

section

variable {v w : LinkView} {pairs : List Pair} {creating : Option Creating}

theorem Pair.Bound.evolves {p : Pair} (h : p.Bound v) (time : v.Evolves w) : p.Bound w :=
  ⟨h.primary, h.coupled.evolves time⟩

theorem Unowned.evolves {i j : Nat} (h : Unowned v pairs i j) (time : v.Evolves w) :
    Unowned w pairs i j := ⟨h.coupled.evolves time, h.left, h.right⟩

theorem Creating.Consistent.evolves {c : Creating} (h : c.Consistent v pairs)
    (time : v.Evolves w) : c.Consistent w pairs := by
  cases c with
  | add | cleanup => trivial
  | findPeer primary peerName =>
      obtain ⟨j, unowned, named⟩ := h
      refine ⟨j, unowned.evolves time, fun m hm => ?_⟩
      obtain ⟨l, hl, name, _⟩ := time.same j m unowned.coupled.usedRight hm
      rw [← name, named l hl]
  | bringUpPrimary primary peer =>
      obtain ⟨j, unowned, found⟩ := h
      exact ⟨j, unowned.evolves time, found.imp_right (time.absent unowned.coupled.usedLeft)⟩
  | bringUpPeer primary peer => exact Unowned.evolves h time

/-- Whatever happens to the links, the pairs stay owned. -/
theorem Owning.evolves (h : Owning v pairs creating) (time : v.Evolves w) :
    Owning w pairs creating where
  bound := fun p hp => (h.bound p hp).evolves time
  disjoint := h.disjoint
  creating := fun c hc => (h.creating c hc).evolves time

/-- A call goes on, or ends without a pair. -/
theorem Owning.goesOn (h : Owning v pairs creating) {next : Option Creating}
    (consistent : ∀ c ∈ next, c.Consistent v pairs) : Owning v pairs next :=
  ⟨h.bound, h.disjoint, consistent⟩

/-- New links belong to no pair. -/
theorem Owning.not_owns (h : Owning v pairs creating) {i : Nat} (new : i ∉ v.used) {p : Pair}
    (hp : p ∈ pairs) : ¬ p.Owns i := by
  have coupled := (h.bound p hp).coupled
  rintro (rfl | rfl)
  · exact new coupled.usedLeft
  · exact new coupled.usedRight

/-- A call ends with a pair. -/
theorem Owning.cons (h : Owning v pairs creating) {p : Pair} (bound : p.Bound v)
    (unowned : Unowned v pairs p.primaryIdx p.peerIdx) : Owning v (p :: pairs) none where
  bound := by
    intro q hq
    rcases List.mem_cons.mp hq with rfl | hq
    · exact bound
    · exact h.bound q hq
  disjoint := by
    refine List.pairwise_cons.mpr ⟨?_, h.disjoint⟩
    rintro q hq i (rfl | rfl)
    · exact unowned.left q hq
    · exact unowned.right q hq
  creating := fun c hc => by contradiction

end

namespace Client

variable {nl} {s t : Client σ}

/-- The invariant, in a state. -/
abbrev Owns (nl : Netlink σ ε) (s : Client σ) : Prop :=
  Owning (nl.view s.system) s.pairs s.creating

theorem Owns.start (system : σ) : Owns nl (Client.start system) :=
  ⟨fun p hp => by contradiction, .nil, fun c hc => by contradiction⟩

/-- `Delete` only lets time pass. -/
theorem delete_evolves (lawful : nl.Lawful) (p : Option Pair) (system : σ) :
    (nl.view system).Evolves (nl.view (Pair.delete nl p system).2) := by
  cases hp : p.bind Pair.primary with
  | none =>
      simp only [Pair.delete, hp]
      exact .refl _
  | some primary =>
      have time := lawful.linkDel primary system
      simp only [Pair.delete, hp]
      split
      next after deleted => rwa [deleted] at time
      next err after failed =>
        rw [failed] at time
        split <;> exact time

/-- A new device belongs to nobody. -/
theorem Owns.add (lawful : nl.Lawful) (inv : Owns nl s) (link : NetkitLink) :
    Owns nl (s.advance nl (.add link)) := by
  have time := lawful.linkAdd link s.system
  simp only [Client.advance]
  split
  next err system failed =>
    rw [failed] at time
    exact (inv.evolves time).goesOn fun c hc => by contradiction
  next index system added =>
    rw [added] at time
    obtain ⟨j, new, newMate, hi, hj⟩ := lawful.linkAdd_ok _ _ _ _ added
    have wf := lawful.wellFormed system
    have coupled : (nl.view system).Coupled index j :=
      { usedLeft := wf.used _ _ hi
        usedRight := wf.used _ _ hj
        left := fun l hl => by rw [hi, Option.some.injEq] at hl; rw [← hl]
        right := fun l hl => by rw [hj, Option.some.injEq] at hl; rw [← hl] }
    refine (inv.evolves time).goesOn fun c hc => Option.some.inj hc ▸ ⟨j, ?_, ?_⟩
    · exact ⟨coupled, fun p hp => inv.not_owns new hp, fun p hp => inv.not_owns newMate hp⟩
    · intro l hl
      rw [hj, Option.some.injEq] at hl
      rw [← hl]

/-- While the primary is there, the link that is found is its other end. -/
theorem Owns.findPeer (lawful : nl.Lawful) (inv : Owns nl s) {primary : LinkAttrs}
    {peerName : String}
    (consistent : (Creating.findPeer primary peerName).Consistent (nl.view s.system) s.pairs) :
    Owns nl (s.advance nl (.findPeer primary peerName)) := by
  obtain ⟨j, unowned, named⟩ := consistent
  simp only [Client.advance]
  split
  next err failed => exact inv.goesOn fun c hc => Option.some.inj hc ▸ trivial
  next peer found =>
    refine inv.goesOn fun c hc => Option.some.inj hc ▸ ⟨j, unowned, ?_⟩
    cases present : (nl.view s.system).links primary.index with
    | none => exact .inr rfl
    | some l =>
        have wf := lawful.wellFormed s.system
        obtain ⟨m, hm, _⟩ := wf.mates _ _ l present (unowned.coupled.left l present)
        obtain ⟨m', hm', name⟩ := lawful.linkByName_ok _ _ _ found
        exact .inl (wf.unique _ _ m' m hm' hm (by rw [name, named m hm]))

/-- The primary can only be brought up while it is there. -/
theorem Owns.bringUpPrimary (lawful : nl.Lawful) (inv : Owns nl s) {primary peer : LinkAttrs}
    (consistent : (Creating.bringUpPrimary primary peer).Consistent (nl.view s.system) s.pairs) :
    Owns nl (s.advance nl (.bringUpPrimary primary peer)) := by
  obtain ⟨j, unowned, found⟩ := consistent
  have time := lawful.linkSetUp primary s.system
  simp only [Client.advance]
  split
  next err system failed =>
    rw [failed] at time
    exact (inv.evolves time).goesOn fun c hc => Option.some.inj hc ▸ trivial
  next system up =>
    rw [up] at time
    have positive : primary.index ≠ 0 := fun zero =>
      (lawful.wellFormed s.system).positive (zero ▸ unowned.coupled.usedLeft)
    have same : peer.index = j := by
      rcases found with same | gone
      · exact same
      · exact absurd (by rw [up]) (lawful.linkSetUp_absent primary s.system positive gone)
    subst same
    exact (inv.evolves time).goesOn fun c hc => Option.some.inj hc ▸ unowned.evolves time

/-- When both ends are up, the device is a pair. -/
theorem Owns.bringUpPeer (lawful : nl.Lawful) (inv : Owns nl s) {primary peer : LinkAttrs}
    (unowned : Unowned (nl.view s.system) s.pairs primary.index peer.index) :
    Owns nl (s.advance nl (.bringUpPeer primary peer)) := by
  have time := lawful.linkSetUp peer s.system
  simp only [Client.advance]
  split
  next err system failed =>
    rw [failed] at time
    exact (inv.evolves time).goesOn fun c hc => Option.some.inj hc ▸ trivial
  next system up =>
    rw [up] at time
    have later := unowned.evolves time
    exact (inv.evolves time).cons ⟨⟨primary, rfl, rfl⟩, later.coupled⟩ later

/-- Every netlink call of `CreatePair` keeps the invariant. -/
theorem Owns.advance (lawful : nl.Lawful) (inv : Owns nl s) {c : Creating}
    (hc : s.creating = some c) : Owns nl (s.advance nl c) := by
  have consistent := inv.creating c hc
  cases c with
  | add link => exact inv.add lawful link
  | findPeer => exact inv.findPeer lawful consistent
  | bringUpPrimary => exact inv.bringUpPrimary lawful consistent
  | bringUpPeer => exact inv.bringUpPeer lawful consistent
  | cleanup primary err =>
      have time := lawful.linkDel primary s.system
      exact (inv.evolves time).goesOn fun c hc => by contradiction

theorem Owns.step (lawful : nl.Lawful) {a : Action ε} (inv : Owns nl s)
    (h : step nl s a = some t) : Owns nl t := by
  cases a with
  | others e =>
      exact Option.some.inj h ▸ inv.evolves (lawful.others e s.system)
  | create name opts =>
      simp only [Client.step] at h
      split at h
      next => contradiction
      next idle =>
        split at h
        next =>
          rw [← Option.some.inj h]
          exact inv
        next =>
          rw [← Option.some.inj h]
          exact inv.goesOn fun c hc => Option.some.inj hc ▸ trivial
  | next =>
      simp only [Client.step] at h
      split at h
      next => contradiction
      next c hc =>
        rw [← Option.some.inj h]
        exact inv.advance lawful hc
  | delete k =>
      simp only [Client.step] at h
      split at h
      next => contradiction
      next p hp =>
        rw [← Option.some.inj h]
        exact inv.evolves (delete_evolves lawful (some p) s.system)

/-- A missing link is no error. -/
theorem delete_eq {p : Pair} {a : LinkAttrs} {system : σ} (primary : p.primary = some a)
    (ignored : ∀ err ∈ (nl.linkDel a system).1, err = .errno enodev) :
    Pair.delete nl (some p) system = (none, (nl.linkDel a system).2) := by
  have hp : (some p).bind Pair.primary = some a := primary
  simp only [Pair.delete, hp]
  split
  next after deleted => rw [deleted]
  next err after failed =>
    rw [failed] at ignored ⊢
    exact if_pos (ignored err rfl)

/-- Deleting a pair, in any state. -/
theorem delete_bound (lawful : nl.Lawful) {p : Pair} {system : σ}
    (bound : p.Bound (nl.view system)) :
    (Pair.delete nl (some p) system).1 = none ∧
      ∀ i, (nl.view (Pair.delete nl (some p) system).2).links i =
        if p.Owns i then none else (nl.view system).links i := by
  obtain ⟨a, primary, index⟩ := bound.primary
  have coupled := bound.coupled
  have wf := lawful.wellFormed system
  cases present : (nl.view system).links a.index with
  | some l =>
      obtain ⟨succeeds, gone⟩ := lawful.linkDel_present a system l present
      have deleted := delete_eq primary fun err herr => by
        rw [succeeds] at herr
        contradiction
      rw [deleted]
      rw [index] at present gone
      refine ⟨rfl, fun i => ?_⟩
      have own : i = p.primaryIdx ∨ l.mate = some i ↔ p.Owns i := by
        rw [coupled.left l present, Option.some.injEq, eq_comm (a := p.peerIdx)]
        rfl
      simp only [gone i, own]
  | none =>
      have positive : a.index ≠ 0 := fun zero =>
        wf.positive (zero ▸ index ▸ coupled.usedLeft)
      obtain ⟨fails, same⟩ := lawful.linkDel_absent a system positive present
      have deleted := delete_eq primary fun err herr => by
        rw [fails] at herr
        exact (Option.some.inj herr).symm
      rw [deleted, same]
      rw [index] at present
      refine ⟨rfl, fun i => ?_⟩
      split
      next own =>
        rcases own with rfl | rfl
        · exact present
        · exact coupled.absent wf present
      next => rfl

theorem Owns.ownsLinks (lawful : nl.Lawful) (inv : Owns nl s) : OwnsLinks nl s where
  disjoint := inv.disjoint
  deletes := fun p hp => (delete_bound lawful (inv.bound p hp)).2
  returnsNil := fun p hp => (delete_bound lawful (inv.bound p hp)).1

/-- Whatever the client and the other processes do, and in whatever order, every pair
keeps its own links: no other pair has them, and deleting the pair deletes what is left
of them and nothing else. -/
theorem run_ownsLinks (lawful : nl.Lawful) {system : σ} {as : List (Action ε)}
    (run : Transition.run (step nl) (Client.start system) as = some t) : OwnsLinks nl t :=
  (Transition.run_invariant (fun _ _ _ inv h => Owns.step lawful inv h) (Owns.start system)
    run).ownsLinks lawful

/-- A pair is made and deleted by another process, which then takes its names; the pair
is deleted twice, and another one is made. -/
def takenOver : List (Action LinkTable.Event) :=
  [.create "nk0" [withL3Mode], .next, .next, .next, .next, .others (.remove 2),
    .others (.addPair "nk0" "nk0p"), .delete 0, .delete 0,
    .create "nk1" [withL2Mode, withNoScrub], .next, .next, .next, .next]

theorem takenOver_ownsLinks :
    OwnsLinks LinkTable.netlink
      ((Transition.run (step LinkTable.netlink) (Client.start .empty) takenOver).get
        (by decide +kernel)) :=
  run_ownsLinks LinkTable.netlink_lawful (Option.some_get _).symm

/-- The calls of `CreatePair` that are left, when nothing disturbs them. -/
theorem run_next (system : σ) (c : Creating) (returned : List (Except CreateError Pair)) (n : Nat) :
    Transition.run (step nl) ⟨system, some c, returned⟩ (List.replicate (n + 1) .next) =
      Transition.run (step nl) (Client.advance nl ⟨system, some c, returned⟩ c)
        (List.replicate n .next) := rfl

/-- A call that nothing disturbs is `createPair`. -/
theorem run_createPair (name : String) (opts : List PairOption) (idle : s.creating = none) :
    ∃ n, Transition.run (step nl) s (.create name opts :: List.replicate n .next) =
      some
        { system := (createPair nl name opts s.system).2
          creating := none
          returned := (createPair nl name opts s.system).1 :: s.returned } := by
  obtain ⟨system, creating, returned⟩ := s
  obtain rfl : creating = none := idle
  by_cases empty : name = ""
  · exact ⟨0, by simp [createPair, Client.step, empty, Transition.run]⟩
  have called : step nl ⟨system, none, returned⟩ (.create name opts) =
      some ⟨system, some (.add (netkitLink name opts)), returned⟩ := by
    simp only [Client.step, if_neg empty]
  simp only [Transition.run_cons, called, Option.bind_some, createPair, if_neg empty]
  cases hadd : nl.linkAdd (netkitLink name opts) system with
  | mk added s1 =>
    cases added with
    | error err =>
        refine ⟨1, ?_⟩
        simp only [run_next, advance, hadd]
        rfl
    | ok index =>
      cases hfind : nl.linkByName (netkitLink name opts).peerAttrs.name s1 with
      | error err =>
          refine ⟨3, ?_⟩
          simp only [run_next, advance, hadd, hfind]
          rfl
      | ok peer =>
        cases hup : nl.linkSetUp ⟨name, index⟩ s1 with
        | mk result s2 =>
          cases result with
          | some err =>
              refine ⟨4, ?_⟩
              simp only [run_next, advance, hadd, hfind, netkitLink_name, hup]
              rfl
          | none =>
            cases hpeer : nl.linkSetUp peer s2 with
            | mk result s3 =>
              cases result with
              | some err =>
                  refine ⟨5, ?_⟩
                  simp only [run_next, advance, hadd, hfind, netkitLink_name, hup, hpeer]
                  rfl
              | none =>
                  refine ⟨4, ?_⟩
                  simp only [run_next, advance, hadd, hfind, netkitLink_name, hup, hpeer]
                  rfl

end Client

end Xcnf.Netkit
