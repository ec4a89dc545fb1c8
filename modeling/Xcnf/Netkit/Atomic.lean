import Xcnf.Netkit.Pair

/-!
# `CreatePair` is all or nothing

If every netlink call succeeds or leaves the links as they are, and the cleanup finds the
link that it deletes, then so does `CreatePair`: with an error the links are those that
there were before, and with a pair there are its two links more, both up. A link that
there was before under either name makes `LinkAdd` fail, and is not touched.
-/

namespace Xcnf

/-- From `v` to `w` there are two links more, which are the ends of one device. -/
structure LinkView.AddsPair (v w : LinkView) (name peer : String) (i j : Nat) (up peerUp : Bool) :
    Prop where
  new : v.links i = none
  peerNew : v.links j = none
  distinct : i ≠ j
  added : w.links i = some ⟨name, some j, up⟩
  peerAdded : w.links j = some ⟨peer, some i, peerUp⟩
  others : ∀ k, k ≠ i → k ≠ j → w.links k = v.links k

universe u v

/-- Calls that succeed or change nothing, on links with unique names. -/
structure Netlink.Atomic {σ : Type u} {ε : Type v} (nl : Netlink σ ε) : Prop where
  unique : ∀ s i j l m, (nl.view s).links i = some l → (nl.view s).links j = some m →
    l.name = m.name → i = j
  linkAdd_ok : ∀ dev s i s', nl.linkAdd dev s = (.ok i, s') →
    ∃ j, (nl.view s).AddsPair (nl.view s') dev.attrs.name dev.peerAttrs.name i j false false
  linkAdd_error : ∀ dev s err s', nl.linkAdd dev s = (.error err, s') →
    (nl.view s').links = (nl.view s).links
  linkByName_ok : ∀ name s a, nl.linkByName name s = .ok a →
    ∃ l, (nl.view s).links a.index = some l ∧ l.name = name
  linkSetUp_ok : ∀ a s s', nl.linkSetUp a s = (none, s') → ∀ k,
    (nl.view s').links k =
      ((nl.view s).links k).map fun l => if k = a.index then { l with up := true } else l
  linkSetUp_error : ∀ a s err s', nl.linkSetUp a s = (some err, s') →
    (nl.view s').links = (nl.view s).links
  /-- Deleting a link that is there succeeds, and the other end goes with it. -/
  linkDel_present : ∀ a s l, (nl.view s).links a.index = some l → ∀ k,
    (nl.view (nl.linkDel a s).2).links k =
      if k = a.index ∨ l.mate = some k then none else (nl.view s).links k

namespace Netlink.Atomic

variable {σ : Type u} {ε : Type v} {nl : Netlink σ ε} {v : LinkView} {s s' : σ} {a : LinkAttrs}
variable {name peer : String} {i j : Nat} {up peerUp : Bool}

/-- `LinkAdd` fails if one of the names is taken. -/
theorem linkAdd_taken (atomic : nl.Atomic) {dev : NetkitLink} {k : Nat} {l : Link}
    (held : (nl.view s).links k = some l)
    (taken : l.name = dev.attrs.name ∨ l.name = dev.peerAttrs.name) :
    ∃ err, (nl.linkAdd dev s).1 = .error err := by
  cases hadd : nl.linkAdd dev s with
  | mk added s1 =>
    cases added with
    | error err => exact ⟨err, rfl⟩
    | ok i =>
      obtain ⟨j, pair⟩ := atomic.linkAdd_ok dev s i s1 hadd
      have first : k ≠ i := fun same => by
        rw [same, pair.new] at held
        contradiction
      have second : k ≠ j := fun same => by
        rw [same, pair.peerNew] at held
        contradiction
      rw [← pair.others k first second] at held
      rcases taken with same | same
      · exact absurd (atomic.unique s1 k i l _ held pair.added same) first
      · exact absurd (atomic.unique s1 k j l _ held pair.peerAdded same) second

/-- The only link with the peer's name is the peer. -/
theorem find_peer (atomic : nl.Atomic) (h : v.AddsPair (nl.view s) name peer i j up peerUp)
    (found : nl.linkByName peer s = .ok a) : a.index = j := by
  obtain ⟨l, hl, same⟩ := atomic.linkByName_ok peer s a found
  exact atomic.unique s a.index j l _ hl h.peerAdded same

theorem setUp_primary (atomic : nl.Atomic) (h : v.AddsPair (nl.view s) name peer i j up peerUp)
    (index : a.index = i) (set : nl.linkSetUp a s = (none, s')) :
    v.AddsPair (nl.view s') name peer i j true peerUp := by
  have links := atomic.linkSetUp_ok a s s' set
  rw [index] at links
  refine ⟨h.new, h.peerNew, h.distinct, ?_, ?_, fun k first second => ?_⟩
  · rw [links, h.added, Option.map_some, if_pos rfl]
  · rw [links, h.peerAdded, Option.map_some, if_neg h.distinct.symm]
  · rw [links, h.others k first second]
    simp only [if_neg first, Option.map_id']

theorem setUp_peer (atomic : nl.Atomic) (h : v.AddsPair (nl.view s) name peer i j up peerUp)
    (index : a.index = j) (set : nl.linkSetUp a s = (none, s')) :
    v.AddsPair (nl.view s') name peer i j up true := by
  have links := atomic.linkSetUp_ok a s s' set
  rw [index] at links
  refine ⟨h.new, h.peerNew, h.distinct, ?_, ?_, fun k first second => ?_⟩
  · rw [links, h.added, Option.map_some, if_neg h.distinct]
  · rw [links, h.peerAdded, Option.map_some, if_pos rfl]
  · rw [links, h.others k first second]
    simp only [if_neg second, Option.map_id']

/-- A failing `LinkSetUp` leaves the new links as they are. -/
theorem setUp_error (atomic : nl.Atomic) (h : v.AddsPair (nl.view s) name peer i j up peerUp)
    {err : NetlinkError} (failed : nl.linkSetUp a s = (some err, s')) :
    v.AddsPair (nl.view s') name peer i j up peerUp := by
  have same := atomic.linkSetUp_error a s err s' failed
  refine ⟨h.new, h.peerNew, h.distinct, ?_, ?_, ?_⟩
  · rw [same, h.added]
  · rw [same, h.peerAdded]
  · rw [same]
    exact h.others

/-- The cleanup takes both new links away, and nothing else. -/
theorem cleanup (atomic : nl.Atomic) (h : v.AddsPair (nl.view s) name peer i j up peerUp)
    (index : a.index = i) : (nl.view (nl.linkDel a s).2).links = v.links := by
  have present : (nl.view s).links a.index = some ⟨name, some j, up⟩ := by rw [index, h.added]
  funext k
  rw [atomic.linkDel_present a s _ present, index]
  by_cases first : k = i
  · rw [if_pos (.inl first), first, h.new]
  · by_cases second : k = j
    · rw [if_pos (.inr (congrArg some second.symm)), second, h.peerNew]
    · have kept : ¬ (k = i ∨ some j = some k) := by
        rintro (same | same)
        · exact first same
        · exact second (Option.some.inj same).symm
      rw [if_neg kept, h.others k first second]

end Netlink.Atomic

namespace Netkit

/-- From `v` to `w`, with this result of `CreatePair`. -/
structure AllOrNothing (v w : LinkView) (name : String) (result : Except CreateError Pair) :
    Prop where
  nothing : ∀ err, result = .error err → w.links = v.links
  all : ∀ p, result = .ok p →
    v.AddsPair w name (name ++ "p") p.primaryIdx p.peerIdx true true ∧
      p.primary = some ⟨name, p.primaryIdx⟩ ∧ ∃ a, p.peer = some a ∧ a.index = p.peerIdx

theorem AllOrNothing.of_error {v w : LinkView} {name : String} {err : CreateError}
    (same : w.links = v.links) : AllOrNothing v w name (.error err) where
  nothing := fun _ _ => same
  all := fun _ h => by contradiction

variable {σ : Type u} {ε : Type v} {nl : Netlink σ ε}

/-- Whichever of its calls fail, `CreatePair` makes the whole pair or nothing. -/
theorem createPair_allOrNothing (atomic : nl.Atomic) (name : String) (opts : List PairOption)
    (s : σ) :
    AllOrNothing (nl.view s) (nl.view (createPair nl name opts s).2) name
      (createPair nl name opts s).1 := by
  by_cases empty : name = ""
  · simp only [createPair, if_pos empty]
    exact .of_error rfl
  simp only [createPair, if_neg empty]
  cases hadd : nl.linkAdd (netkitLink name opts) s with
  | mk added s1 =>
    cases added with
    | error err => exact .of_error (atomic.linkAdd_error _ s err s1 hadd)
    | ok i =>
      obtain ⟨j, pair⟩ := atomic.linkAdd_ok _ s i s1 hadd
      dsimp only
      cases hfind : nl.linkByName (netkitLink name opts).peerAttrs.name s1 with
      | error err => exact .of_error (atomic.cleanup pair rfl)
      | ok peer =>
        have index : peer.index = j := atomic.find_peer pair hfind
        dsimp only
        cases hup : nl.linkSetUp ⟨name, i⟩ s1 with
        | mk result s2 =>
          cases result with
          | some err => exact .of_error (atomic.cleanup (atomic.setUp_error pair hup) rfl)
          | none =>
            have pair := atomic.setUp_primary pair rfl hup
            dsimp only
            cases hpeer : nl.linkSetUp peer s2 with
            | mk result s3 =>
              cases result with
              | some err => exact .of_error (atomic.cleanup (atomic.setUp_error pair hpeer) rfl)
              | none =>
                have pair := atomic.setUp_peer pair index hpeer
                refine ⟨fun _ h => by contradiction, fun p hp => ?_⟩
                obtain rfl := Except.ok.inj hp
                subst index
                exact ⟨pair, rfl, peer, rfl, rfl⟩

end Netkit

/-! ## A table of links whose calls fail at will -/

inductive NetlinkCall where
  | linkAdd
  | linkByName
  | linkSetUp (name : String)
  deriving DecidableEq

namespace LinkTable

/-- The calls given fail, and so do those that would otherwise. -/
def failing (fails : NetlinkCall → Bool) : Netlink LinkTable Event where
  view := view
  linkAdd := fun dev t =>
    if fails .linkAdd then (.error (.other "interrupted"), t) else netlink.linkAdd dev t
  linkByName := fun name t =>
    if fails .linkByName then .error (.other "interrupted") else netlink.linkByName name t
  linkSetUp := fun a t =>
    if fails (.linkSetUp a.name) then (some (.other "interrupted"), t) else netlink.linkSetUp a t
  linkDel := netlink.linkDel
  others := netlink.others

theorem addPair_addsPair (t : LinkTable) {name peer : String} (free : t.Free name peer) :
    t.view.AddsPair (t.addPair name peer free).view name peer (t.next + 1) (t.next + 2) false
      false := by
  have new {k : Nat} (above : t.next ≤ k) : t.links k = none := by
    cases hk : t.links k with
    | none => rfl
    | some l =>
        have below := (t.wellFormed.used k l hk).2
        omega
  refine ⟨new (by omega), new (by omega), by omega, if_pos rfl, ?_, ?_⟩
  · exact (if_neg (by omega)).trans (if_pos rfl)
  · intro k first second
    exact (if_neg first).trans (if_neg second)

theorem failing_atomic (fails : NetlinkCall → Bool) : (failing fails).Atomic where
  unique := fun t => t.wellFormed.unique
  linkAdd_ok := by
    intro dev t i t' h
    simp only [failing, netlink] at h
    split at h
    · simp at h
    · split at h
      next free =>
        simp only [Prod.mk.injEq, Except.ok.injEq] at h
        obtain ⟨rfl, rfl⟩ := h
        exact ⟨_, addPair_addsPair t free⟩
      next => simp at h
  linkAdd_error := by
    intro dev t err t' h
    simp only [failing, netlink] at h
    split at h
    · rw [← (Prod.mk.inj h).2]
    · split at h
      · simp at h
      · rw [← (Prod.mk.inj h).2]
  linkByName_ok := by
    intro name t a h
    simp only [failing] at h
    split at h
    · contradiction
    · exact netlink_lawful.linkByName_ok name t a h
  linkSetUp_ok := by
    intro a t t' h
    simp only [failing, netlink] at h
    split at h
    · simp at h
    · split at h
      · rw [← (Prod.mk.inj h).2]
        exact fun k => rfl
      · simp at h
  linkSetUp_error := by
    intro a t err t' h
    simp only [failing, netlink] at h
    split at h
    · rw [← (Prod.mk.inj h).2]
    · split at h
      · simp at h
      · rw [← (Prod.mk.inj h).2]
  linkDel_present := fun a t l present => (netlink_lawful.linkDel_present a t l present).2

end LinkTable

namespace Netkit

open LinkTable

/-- The peer cannot be brought up. -/
def peerStaysDown : NetlinkCall → Bool
  | .linkSetUp name => name = "nk0p"
  | .linkAdd | .linkByName => false

theorem peerStaysDown_allOrNothing :
    AllOrNothing ((failing peerStaysDown).view .empty)
      ((failing peerStaysDown).view
        (createPair (failing peerStaysDown) "nk0" [withL2Mode] .empty).2) "nk0"
      (createPair (failing peerStaysDown) "nk0" [withL2Mode] .empty).1 :=
  createPair_allOrNothing (failing_atomic peerStaysDown) "nk0" [withL2Mode] .empty

example : (createPair (failing peerStaysDown) "nk0" [withL2Mode] .empty).1 =
    .error (.bringUpPeer (.other "interrupted")) := by decide +kernel

end Netkit

end Xcnf
