import Xcnf.Lib.Defer
import Xcnf.Netkit.LinkLocal

/-!
# The run of the netkit example

`run` makes a pair, loads the programs, attaches them and waits for a signal. What it has
acquired it releases in the end by deferred calls, whose errors are dropped. `Close` of the
loaded objects stops at the first of them that cannot be closed.

The calls that `run` makes are parameters. Where each of them notes in a journal what it was
called with and what it has returned, `run_unwinds` says what the whole journal is, by the
result of `run`.

Everything that other processes do meanwhile is part of the calls: `LetsLinksBe` says only that
a call takes no index away from its link. The calls for the pair are then those of the package
`netkit`, and `run_clears` says which links are deleted in the end.
-/

namespace Xcnf.Netkit

open Effect

/-- The primary and the peer, with their programs. -/
inductive PairEnd where
  | primary
  | peer
  deriving DecidableEq

/-- `NetkitObjects`, whose programs and maps are known by handles. -/
structure NetkitObjects (η : Type) where
  netkitPeer : η
  netkitPrimary : η
  ipv6Events : η
  deriving DecidableEq

/-- The calls of the package `netkit`. -/
structure PairCalls (σ ε : Type) where
  createPair : String → List PairOption → Call CreateError σ Pair
  delete : Pair → Call DeleteError σ Unit
  configureIPv6LinkLocal : Pair → Call (ConfigureError ε) σ Unit

/-- The calls of the libraries, with handles `η` for what they open. -/
structure RunCalls (σ ε η : Type) where
  removeMemlock : Call ε σ Unit
  loadNetkitObjects : Call ε σ (NetkitObjects η)
  /-- `link.AttachNetkit`, of a program to an interface. -/
  attachNetkit : η → Nat → PairEnd → Call ε σ η
  newReader : η → Call ε σ η
  close : η → Call ε σ Unit
  notifyContext : σ → σ
  /-- Until a signal comes. -/
  wait : σ → σ
  cancel : σ → σ

inductive RunError (ε : Type) where
  /-- `removing memlock: %w`. -/
  | removingMemlock (err : ε)
  /-- `creating netkit pair: %w`. -/
  | creatingPair (err : CreateError)
  /-- `configuring IPv6: %w`. -/
  | configuringIPv6 (err : ConfigureError ε)
  /-- `loading eBPF objects: %w`. -/
  | loadingObjects (err : ε)
  /-- `attaching primary: %w`. -/
  | attachingPrimary (err : ε)
  /-- `attaching peer: %w`. -/
  | attachingPeer (err : ε)
  /-- `opening ringbuf: %w`. -/
  | openingRingbuf (err : ε)
  deriving DecidableEq

section

variable {σ ε η : Type} (netkit : PairCalls σ ε) (calls : RunCalls σ ε η)

/-- `NetkitPrograms.Close`. -/
def NetkitObjects.closePrograms (o : NetkitObjects η) : Call ε σ Unit :=
  each calls.close [o.netkitPeer, o.netkitPrimary]

/-- `NetkitMaps.Close`. -/
def NetkitObjects.closeMaps (o : NetkitObjects η) : Call ε σ Unit :=
  each calls.close [o.ipv6Events]

/-- `NetkitObjects.Close`. -/
def NetkitObjects.close (o : NetkitObjects η) : Call ε σ Unit :=
  each id [o.closePrograms calls, o.closeMaps calls]

/-- The part of `run` that has a pair. -/
def monitor (pair : Pair) : Call (RunError ε) σ Unit := do
  wrapping .configuringIPv6 (netkit.configureIPv6LinkLocal pair)
  deferring (wrapping .loadingObjects calls.loadNetkitObjects)
    (fun objs => objs.close calls) fun objs =>
  deferring
    (wrapping .attachingPrimary
      (calls.attachNetkit objs.netkitPrimary pair.primaryIdx .primary))
    (fun primaryLink => calls.close primaryLink) fun _ =>
  deferring
    (wrapping .attachingPeer (calls.attachNetkit objs.netkitPeer pair.primaryIdx .peer))
    (fun peerLink => calls.close peerLink) fun _ =>
  deferring (wrapping .openingRingbuf (calls.newReader objs.ipv6Events))
    (fun rd => calls.close rd) fun _ =>
  deferring (modify calls.notifyContext)
    (fun _ => (modify calls.cancel : Call ε σ Unit)) fun _ => modify calls.wait

def run (deviceName : String) : Call (RunError ε) σ Unit := do
  wrapping .removingMemlock calls.removeMemlock
  deferring (wrapping .creatingPair (netkit.createPair deviceName [withL3Mode]))
    (fun pair => netkit.delete pair) (monitor netkit calls)

/-- The calls of the package are its own functions. -/
def pairCalls {δ : Type} (nl : Netlink σ δ) (addresses : AddressCalls σ ε) : PairCalls σ ε where
  createPair := fun name opts s =>
    match createPair nl name opts s with
    | (.ok p, s) => .ok p s
    | (.error err, s) => .error err s
  delete := fun p s =>
    match Pair.delete nl (some p) s with
    | (none, s) => .ok () s
    | (some err, s) => .error err s
  configureIPv6LinkLocal := fun p => p.configureIPv6LinkLocal addresses

end

/-! ## What is called and released -/

/-- A call, with what it has returned; of a release only whether it has succeeded. -/
inductive Note (ε η : Type) where
  | removeMemlock (r : Except ε Unit)
  | createPair (link : NetkitLink) (r : Except CreateError Pair)
  | configureIPv6LinkLocal (pair : Pair) (r : Except (ConfigureError ε) Unit)
  | loadNetkitObjects (r : Except ε (NetkitObjects η))
  | attachNetkit (program : η) (i : Nat) (e : PairEnd) (r : Except ε η)
  | newReader (map : η) (r : Except ε η)
  | notifyContext
  | wait
  | cancel
  | close (h : η) (ok : Bool)
  | delete (pair : Pair) (ok : Bool)
  deriving DecidableEq

section

variable {σ ε η : Type}

/-- The calls, each of which is noted. -/
def PairCalls.journal (netkit : PairCalls σ ε) : PairCalls (σ × List (Note ε η)) ε where
  createPair := fun name opts =>
    logging (.createPair (netkitLink name opts)) (netkit.createPair name opts)
  delete := fun pair => logging (.delete pair ∘ Except.isOk) (netkit.delete pair)
  configureIPv6LinkLocal := fun pair =>
    logging (.configureIPv6LinkLocal pair) (netkit.configureIPv6LinkLocal pair)

def RunCalls.journal (calls : RunCalls σ ε η) : RunCalls (σ × List (Note ε η)) ε η where
  removeMemlock := logging .removeMemlock calls.removeMemlock
  loadNetkitObjects := logging .loadNetkitObjects calls.loadNetkitObjects
  attachNetkit := fun program i e =>
    logging (.attachNetkit program i e) (calls.attachNetkit program i e)
  newReader := fun map => logging (.newReader map) (calls.newReader map)
  close := fun h => logging (.close h ∘ Except.isOk) (calls.close h)
  notifyContext := fun p => (calls.notifyContext p.1, .notifyContext :: p.2)
  wait := fun p => (calls.wait p.1, .wait :: p.2)
  cancel := fun p => (calls.cancel p.1, .cancel :: p.2)

/-- The calls up to the one that loads the objects. -/
def opening (deviceName : String) (pair : Pair) : List (Note ε η) :=
  [.removeMemlock (.ok ()), .createPair (netkitLink deviceName [withL3Mode]) (.ok pair),
    .configureIPv6LinkLocal pair (.ok ())]

/-- The releases of the loaded objects. -/
def NetkitObjects.closes (o : NetkitObjects η) : List (Bool → Note ε η) :=
  [.close o.netkitPeer, .close o.netkitPrimary, .close o.ipv6Events]

/-- The calls that `run` makes if it has this result, and the groups that it has to release. -/
inductive Acquires (deviceName : String) :
    Except (RunError ε) Unit → List (Note ε η) → List (List (Bool → Note ε η)) → Prop where
  | removingMemlock {err} :
      Acquires deviceName (.error (.removingMemlock err)) [.removeMemlock (.error err)] []
  | creatingPair {err} :
      Acquires deviceName (.error (.creatingPair err))
        [.removeMemlock (.ok ()), .createPair (netkitLink deviceName [withL3Mode]) (.error err)] []
  | configuringIPv6 {pair err} :
      Acquires deviceName (.error (.configuringIPv6 err))
        [.removeMemlock (.ok ()), .createPair (netkitLink deviceName [withL3Mode]) (.ok pair),
          .configureIPv6LinkLocal pair (.error err)]
        [[.delete pair]]
  | loadingObjects {pair err} :
      Acquires deviceName (.error (.loadingObjects err))
        (opening deviceName pair ++ [.loadNetkitObjects (.error err)])
        [[.delete pair]]
  | attachingPrimary {pair objs err} :
      Acquires deviceName (.error (.attachingPrimary err))
        (opening deviceName pair ++
          [.loadNetkitObjects (.ok objs),
            .attachNetkit objs.netkitPrimary pair.primaryIdx .primary (.error err)])
        [[.delete pair], objs.closes]
  | attachingPeer {pair objs primaryLink err} :
      Acquires deviceName (.error (.attachingPeer err))
        (opening deviceName pair ++
          [.loadNetkitObjects (.ok objs),
            .attachNetkit objs.netkitPrimary pair.primaryIdx .primary (.ok primaryLink),
            .attachNetkit objs.netkitPeer pair.primaryIdx .peer (.error err)])
        [[.delete pair], objs.closes, [.close primaryLink]]
  | openingRingbuf {pair objs primaryLink peerLink err} :
      Acquires deviceName (.error (.openingRingbuf err))
        (opening deviceName pair ++
          [.loadNetkitObjects (.ok objs),
            .attachNetkit objs.netkitPrimary pair.primaryIdx .primary (.ok primaryLink),
            .attachNetkit objs.netkitPeer pair.primaryIdx .peer (.ok peerLink),
            .newReader objs.ipv6Events (.error err)])
        [[.delete pair], objs.closes, [.close primaryLink], [.close peerLink]]
  | done {pair objs primaryLink peerLink rd} :
      Acquires deviceName (.ok ())
        (opening deviceName pair ++
          [.loadNetkitObjects (.ok objs),
            .attachNetkit objs.netkitPrimary pair.primaryIdx .primary (.ok primaryLink),
            .attachNetkit objs.netkitPeer pair.primaryIdx .peer (.ok peerLink),
            .newReader objs.ipv6Events (.ok rd), .notifyContext, .wait])
        [[.delete pair], objs.closes, [.close primaryLink], [.close peerLink], [.close rd],
          [fun _ => .cancel]]

variable (netkit : PairCalls σ ε) (calls : RunCalls σ ε η)

/-- `Close` of the objects is that of one handle after the other. -/
theorem NetkitObjects.close_eq (o : NetkitObjects η) :
    o.close calls = each calls.close [o.netkitPeer, o.netkitPrimary, o.ipv6Events] := by
  simp only [close, closePrograms, closeMaps, each, id, bind_assoc, pure_bind]

theorem NetkitObjects.close_notes (o : NetkitObjects η) :
    Notes (o.close calls.journal) (o.close calls) := by
  rw [close_eq, close_eq]
  exact Notes.each (f := calls.close) (g := calls.journal.close) (fun _ => .logging _ _) _

theorem NetkitObjects.close_leaves (o : NetkitObjects η) :
    Leaves o.closes (o.close calls.journal) := by
  rw [close_eq]
  exact .each (fun h => .logging _ _) [o.netkitPeer, o.netkitPrimary, o.ipv6Events]

/-- The journal changes nothing of what `run` does. -/
theorem run_journal (deviceName : String) :
    Notes (run netkit.journal calls.journal deviceName) (run netkit calls deviceName) := by
  apply Notes.bind (.wrapping _ (.logging _ _))
  intro _
  apply Notes.deferring (.wrapping _ (.logging _ _)) (fun _ => .logging _ _)
  intro pair
  apply Notes.bind (.wrapping _ (.logging _ _))
  intro _
  apply Notes.deferring (.wrapping _ (.logging _ _)) (fun objs => objs.close_notes calls)
  intro objs
  apply Notes.deferring (.wrapping _ (.logging _ _)) (fun _ => .logging _ _)
  intro _
  apply Notes.deferring (.wrapping _ (.logging _ _)) (fun _ => .logging _ _)
  intro _
  apply Notes.deferring (.wrapping _ (.logging _ _)) (fun _ => .logging _ _)
  intro _
  exact Notes.deferring (fun _ => rfl) (fun _ _ => rfl) (fun _ _ => rfl)

/-- Whichever call fails: `run` has made the calls up to that one, and releases what it has
acquired by them and nothing else, in the opposite order. -/
theorem run_unwinds (deviceName : String) :
    Notes (run netkit.journal calls.journal deviceName) (run netkit calls deviceName) ∧
      Unwinds (Acquires deviceName) (run netkit.journal calls.journal deviceName) := by
  refine ⟨run_journal netkit calls deviceName, ?_⟩
  apply Unwinds.bind (.wrapping (.logging _ _) _) fun _ => .removingMemlock
  intro _
  apply Unwinds.deferring (.wrapping (.logging _ _) _) (fun _ => .creatingPair)
    (fun pair => .single (.logging _ _))
  intro pair
  apply Unwinds.bind (.wrapping (.logging _ _) _) fun _ => .configuringIPv6
  intro _
  apply Unwinds.deferring (.wrapping (.logging _ _) _) (fun _ => .loadingObjects)
    (fun objs => objs.close_leaves calls)
  intro objs
  apply Unwinds.deferring (.wrapping (.logging _ _) _) (fun _ => .attachingPrimary)
    (fun primaryLink => .single (.logging _ _))
  intro primaryLink
  apply Unwinds.deferring (.wrapping (.logging _ _) _) (fun _ => .attachingPeer)
    (fun peerLink => .single (.logging _ _))
  intro peerLink
  apply Unwinds.deferring (.wrapping (.logging _ _) _) (fun _ => .openingRingbuf)
    (fun rd => .single (.logging _ _))
  intro rd
  apply Unwinds.deferring (.modify calls.notifyContext _) (fun e => e.elim)
    (fun _ => .modify calls.cancel _)
  intro _
  exact .last (.modify calls.wait _) (fun e => e.elim) fun _ => .done

end

/-! ## A run in which the peer is not attached -/

/-- Every address can be added. -/
def everyAddress : AddressCalls LinkTable NetlinkError where
  addrs := fun _ _ => ∅
  randRead := pure (.zero 8)
  addrAdd := fun _ _ => pure ()

/-- Another process makes a device while the programs are loaded. -/
def peerNotAttached : RunCalls LinkTable NetlinkError Nat where
  removeMemlock := pure ()
  loadNetkitObjects := do
    modify (LinkTable.netlink.others (.addPair "eth0" "eth1"))
    return ⟨0, 1, 2⟩
  attachNetkit := fun _ _ e =>
    match e with
    | .primary => pure 3
    | .peer => throw (.errno 16)
  newReader := fun _ => pure 4
  close := fun _ => pure ()
  notifyContext := id
  wait := id
  cancel := id

/-- The program of the primary cannot be closed. -/
def primaryNotClosed : RunCalls LinkTable NetlinkError Nat :=
  { peerNotAttached with close := fun h => if h = 1 then throw (.errno 5) else pure () }

/-- The map is not closed then. -/
theorem primaryNotClosed_unwinds :
    let netkit := pairCalls LinkTable.netlink everyAddress
    Unwinds (Acquires "nk0") (run netkit.journal primaryNotClosed.journal "nk0") ∧
      (final (run netkit.journal primaryNotClosed.journal "nk0" (.empty, []))).2.reverse =
        opening "nk0" nk0 ++
          [.loadNetkitObjects (.ok ⟨0, 1, 2⟩), .attachNetkit 1 2 .primary (.ok 3),
            .attachNetkit 0 2 .peer (.error (.errno 16)), .close 3 true, .close 0 true,
            .close 1 false, .delete nk0 true] :=
  ⟨(run_unwinds _ _ "nk0").2, by decide +kernel⟩

/-! ## Which links are deleted -/

section

variable {σ ε δ η : Type} (nl : Netlink σ δ)

/-- Whatever happens to the links during the call, no index is given to another link. -/
def LetsLinksBe {α : Type} (x : Call ε σ α) : Prop :=
  ∀ s, (nl.view s).Evolves (nl.view (final (x s)))

structure AddressCalls.LetLinksBe (addresses : AddressCalls σ ε) : Prop where
  randRead : LetsLinksBe nl addresses.randRead
  addrAdd : ∀ a addr, LetsLinksBe nl (addresses.addrAdd a addr)

structure RunCalls.LetLinksBe (calls : RunCalls σ ε η) : Prop where
  loadNetkitObjects : LetsLinksBe nl calls.loadNetkitObjects
  attachNetkit : ∀ program i e, LetsLinksBe nl (calls.attachNetkit program i e)
  newReader : ∀ h, LetsLinksBe nl (calls.newReader h)
  close : ∀ h, LetsLinksBe nl (calls.close h)
  notifyContext : ∀ s, (nl.view s).Evolves (nl.view (calls.notifyContext s))
  wait : ∀ s, (nl.view s).Evolves (nl.view (calls.wait s))
  cancel : ∀ s, (nl.view s).Evolves (nl.view (calls.cancel s))

variable {nl} {addresses : AddressCalls σ ε} {calls : RunCalls σ ε η}
variable {v : LinkView} {s t m : σ}

/-- The links have evolved from `v`. -/
abbrev Since (nl : Netlink σ δ) (v : LinkView) (s : σ) : Prop := v.Evolves (nl.view s)

theorem LetsLinksBe.keeps {α : Type} {x : Call ε σ α} (h : LetsLinksBe nl x) :
    Keeps (Since nl v) x := fun s since => since.trans (h s)

theorem NetkitObjects.close_keeps (quiet : calls.LetLinksBe nl) (o : NetkitObjects η) :
    Keeps (Since nl v) (o.close calls) := by
  rw [close_eq]
  exact .each fun h _ => (quiet.close h).keeps

theorem configureIPv6LinkLocal_keeps (quiet : addresses.LetLinksBe nl) (p : Pair) :
    Keeps (Since nl v) (p.configureIPv6LinkLocal addresses) := by
  have one (link : Option LinkAttrs) : Keeps (Since nl v) (assignLinkLocal addresses link) := by
    refine .bind (.bind (.wrapping _ quiet.randRead.keeps) fun _ => .pure _) fun addr => ?_
    exact .wrapping _ (quiet.addrAdd link _).keeps
  exact .bind (.wrapping _ (one _)) fun _ => .wrapping _ (one _)

/-- A new pair has the two links of its device, whose indices were not in use before. -/
theorem createPair_bound (lawful : nl.Lawful) {name : String} {opts : List PairOption} {p : Pair}
    (h : createPair nl name opts s = (.ok p, t)) :
    p.Bound (nl.view t) ∧ ∀ k, p.Owns k → k ∉ (nl.view s).used := by
  simp only [createPair] at h
  split at h
  next => simp at h
  split at h
  next => simp at h
  next index s1 added =>
    obtain ⟨j, new, newMate, hi, hj⟩ := lawful.linkAdd_ok _ _ _ _ added
    split at h
    next => simp at h
    next peer found =>
      -- no other link has the peer's name yet
      obtain ⟨l, hl, same⟩ := lawful.linkByName_ok _ _ _ found
      obtain rfl : peer.index = j := (lawful.wellFormed s1).unique _ _ _ _ hl hj same
      have coupled : (nl.view s1).Coupled index peer.index :=
        { usedLeft := (lawful.wellFormed s1).used _ _ hi
          usedRight := (lawful.wellFormed s1).used _ _ hj
          left := fun l hl => by rw [hi, Option.some.injEq] at hl; rw [← hl]
          right := fun l hl => by rw [hj, Option.some.injEq] at hl; rw [← hl] }
      split at h
      next => simp at h
      next s2 up =>
        have time := lawful.linkSetUp ⟨name, index⟩ s1
        rw [up] at time
        split at h
        next => simp at h
        next s3 peerUp =>
          have time' := lawful.linkSetUp peer s2
          rw [peerUp] at time'
          simp only [Prod.mk.injEq, Except.ok.injEq] at h
          obtain ⟨rfl, rfl⟩ := h
          refine ⟨⟨⟨_, rfl, rfl⟩, coupled.evolves (time.trans time')⟩, fun k own => ?_⟩
          cases own with
          | inl same => exact same ▸ new
          | inr same => exact same ▸ newMate

theorem monitor_keeps (still : addresses.LetLinksBe nl) (quiet : calls.LetLinksBe nl)
    (pair : Pair) : Keeps (Since nl v) (monitor (pairCalls nl addresses) calls pair) := by
  refine .bind ((configureIPv6LinkLocal_keeps still pair).wrapping _) fun _ => ?_
  refine .deferring (.wrapping _ quiet.loadNetkitObjects.keeps)
    (fun objs => objs.close_keeps quiet) fun objs => ?_
  refine .deferring (.wrapping _ (quiet.attachNetkit _ _ _).keeps)
    (fun primaryLink => (quiet.close primaryLink).keeps) fun _ => ?_
  refine .deferring (.wrapping _ (quiet.attachNetkit _ _ _).keeps)
    (fun peerLink => (quiet.close peerLink).keeps) fun _ => ?_
  refine .deferring (.wrapping _ (quiet.newReader _).keeps)
    (fun rd => (quiet.close rd).keeps) fun _ => ?_
  exact .deferring (fun s since => since.trans (quiet.notifyContext s))
    (fun _ s since => since.trans (quiet.cancel s)) fun _ s since => since.trans (quiet.wait s)

theorem pairCalls_delete (p : Pair) (s : σ) :
    final ((pairCalls nl addresses).delete p s) = (Pair.delete nl (some p) s).2 := by
  simp only [pairCalls]
  cases Pair.delete nl (some p) s with
  | mk err after => cases err <;> rfl

/-- `Delete` is called in the state `u`, which has evolved from `t`, and nothing happens after
it. The links that `u` has are left without those of the pair, which were not in use in the
state `m`. -/
structure Clears (nl : Netlink σ δ) (p : Pair) (m t u w : σ) : Prop where
  new : ∀ k, p.Owns k → k ∉ (nl.view m).used
  since : (nl.view t).Evolves (nl.view u)
  last : w = (Pair.delete nl (some p) u).2
  links : ∀ k, (nl.view w).links k = if p.Owns k then none else (nl.view u).links k

/-- Whatever happens after `CreatePair`, and whichever call fails, in the end `run` deletes the
two links that were made for it from those that `monitor` leaves behind, and no others. -/
theorem run_clears (lawful : nl.Lawful) (still : addresses.LetLinksBe nl)
    (quiet : calls.LetLinksBe nl) {deviceName : String} {p : Pair}
    (memlock : calls.removeMemlock s = .ok () m)
    (created : createPair nl deviceName [withL3Mode] m = (.ok p, t)) :
    Clears nl p m t (final (monitor (pairCalls nl addresses) calls p t))
      (final (run (pairCalls nl addresses) calls deviceName s)) := by
  obtain ⟨bound, new⟩ := createPair_bound lawful created
  have since := monitor_keeps still quiet p t (v := nl.view t) (.refl _)
  have made : (pairCalls nl addresses).createPair deviceName [withL3Mode] m = .ok p t := by
    simp only [pairCalls, created]
  have last : final (run (pairCalls nl addresses) calls deviceName s) =
      (Pair.delete nl (some p)
        (final (monitor (pairCalls nl addresses) calls p t))).2 := by
    rw [run, bind_of_ok (wrapping_ok.mpr memlock), final_deferring_of_ok (wrapping_ok.mpr made),
      pairCalls_delete]
  obtain ⟨_, deletes⟩ := Client.delete_bound lawful (bound.evolves since)
  exact ⟨new, since, last, by rwa [last]⟩

end

theorem everyAddress_letLinksBe : everyAddress.LetLinksBe LinkTable.netlink where
  randRead := fun _ => .refl _
  addrAdd := fun _ _ _ => .refl _

theorem peerNotAttached_letLinksBe : peerNotAttached.LetLinksBe LinkTable.netlink where
  loadNetkitObjects := fun t => LinkTable.netlink_lawful.others _ t
  attachNetkit := by
    intro _ _ e t
    cases e <;> exact .refl _
  newReader := fun _ _ => .refl _
  close := fun _ _ => .refl _
  notifyContext := fun _ => .refl _
  wait := fun _ => .refl _
  cancel := fun _ => .refl _

/-- The links after `CreatePair`. -/
def withNk0 : LinkTable := (createPair LinkTable.netlink "nk0" [withL3Mode] .empty).2

theorem peerNotAttached_clears :
    Clears LinkTable.netlink nk0 .empty withNk0
      (final (monitor (pairCalls LinkTable.netlink everyAddress) peerNotAttached nk0 withNk0))
      (final (run (pairCalls LinkTable.netlink everyAddress) peerNotAttached "nk0" .empty)) :=
  run_clears LinkTable.netlink_lawful everyAddress_letLinksBe peerNotAttached_letLinksBe rfl
    (Prod.ext (by decide +kernel) rfl)

end Xcnf.Netkit
