import Mathlib.Data.Set.Insert
import Mathlib.Logic.Function.Basic
import Xcnf.Lib.Effect
import Xcnf.Lib.Region
import Xcnf.Netkit.Pair

/-!
# Link-local addresses of a pair

`ConfigureIPv6LinkLocal` gives each end of a pair an address of `fe80::/64` with a random
interface ID, the primary first. There is no cleanup: when the peer fails, the primary keeps
its address.
-/

namespace Xcnf.Netkit

open Effect

/-- An address with the length of its mask, as `net.IPNet` has them. -/
structure IPNet where
  ip : Region 16
  ones : Nat
  deriving DecidableEq

/-- The random source and `netlink.AddrAdd`, over the states `σ` of the system. -/
structure AddressCalls (σ ε : Type) where
  /-- The addresses of each link, by its index. -/
  addrs : σ → Nat → Set IPNet
  /-- `rand.Read` into eight bytes. -/
  randRead : Call ε σ (Region 8)
  addrAdd : Option LinkAttrs → IPNet → Call ε σ Unit

/-- An address is added once or not at all. -/
structure AddressCalls.Lawful {σ ε : Type} (calls : AddressCalls σ ε) : Prop where
  randRead : ∀ s, calls.addrs (final (calls.randRead s)) = calls.addrs s
  addrAdd_ok : ∀ a addr s t, calls.addrAdd (some a) addr s = .ok () t →
    addr ∉ calls.addrs s a.index ∧ calls.addrs t =
      Function.update (calls.addrs s) a.index (insert addr (calls.addrs s a.index))
  addrAdd_error : ∀ link addr s e t, calls.addrAdd link addr s = .error e t →
    calls.addrs t = calls.addrs s

inductive AddressError (ε : Type) where
  /-- `failed to generate random IID: %w`. -/
  | generateIid (err : ε)
  /-- `failed to add address: %w`. -/
  | addAddress (err : ε)
  deriving DecidableEq

inductive ConfigureError (ε : Type) where
  /-- `primary: %w`. -/
  | primary (err : AddressError ε)
  /-- `peer: %w`. -/
  | peer (err : AddressError ε)
  deriving DecidableEq

variable {σ ε : Type} (calls : AddressCalls σ ε)

def generateLinkLocalAddr : Call (AddressError ε) σ (Region 16) := do
  let addr := Region.zero 16
  let addr := addr.store 0 (.ofByte 0xfe)
  let addr := addr.store 1 (.ofByte 0x80)
  let iid ← wrapping .generateIid calls.randRead
  return addr.store 8 iid

def assignLinkLocal (link : Option LinkAttrs) : Call (AddressError ε) σ Unit := do
  let addr ← generateLinkLocalAddr calls
  wrapping .addAddress (calls.addrAdd link ⟨addr, 64⟩)

def Pair.configureIPv6LinkLocal (p : Pair) : Call (ConfigureError ε) σ Unit := do
  wrapping .primary (assignLinkLocal calls p.primary)
  wrapping .peer (assignLinkLocal calls p.peer)

/-! ## What is added -/

/-- An address of the network `fe80::/64` with this interface ID. -/
structure IPNet.IsLinkLocal (addr : IPNet) (iid : Region 8) : Prop where
  network : addr.ip.load 0 8 = [0xfe, 0x80, 0, 0, 0, 0, 0, 0]
  interfaceId : addr.ip.load 8 8 = iid.bytes
  ones : addr.ones = 64

/-- An interface ID is read, and the link with index `i` gets the address that it is put
into; nothing else changes. -/
def Assigns (s t : σ) (i : Nat) : Prop :=
  ∃ iid m addr, calls.randRead s = .ok iid m ∧ addr.IsLinkLocal iid ∧
    addr ∉ calls.addrs s i ∧
    calls.addrs t = Function.update (calls.addrs s) i (insert addr (calls.addrs s i))

/-- What a call of `ConfigureIPv6LinkLocal` does to the addresses of the links `i` and `j`. -/
structure Configures (s : σ) (result : EStateM.Result (ConfigureError ε) σ Unit) (i j : Nat) :
    Prop where
  done : ∀ t, result = .ok () t → ∃ m, Assigns calls s m i ∧ Assigns calls m t j
  primary : ∀ err t, result = .error (.primary err) t → calls.addrs t = calls.addrs s
  peer : ∀ err t, result = .error (.peer err) t →
    ∃ m, Assigns calls s m i ∧ calls.addrs t = calls.addrs m

variable {calls} {s t : σ} {a : LinkAttrs}

theorem generateLinkLocalAddr_ok {addr : Region 16}
    (h : generateLinkLocalAddr calls s = .ok addr t) :
    ∃ iid, calls.randRead s = .ok iid t ∧ IPNet.IsLinkLocal ⟨addr, 64⟩ iid := by
  obtain ⟨iid, m, read, rest⟩ := bind_ok.mp h
  obtain ⟨rfl, rfl⟩ := pure_ok.mp rest
  refine ⟨iid, wrapping_ok.mp read, ?_, ?_, rfl⟩
  · rw [Region.load_store_before _ (by decide)]
    rfl
  · rw [Region.load_store_same]

theorem final_generateLinkLocalAddr (s : σ) :
    final (generateLinkLocalAddr calls s) = final (calls.randRead s) := by
  rw [generateLinkLocalAddr, bind_apply, wrapping]
  cases calls.randRead s <;> rfl

theorem assignLinkLocal_ok (lawful : calls.Lawful)
    (h : assignLinkLocal calls (some a) s = .ok () t) : Assigns calls s t a.index := by
  obtain ⟨addr, m, generated, added⟩ := bind_ok.mp h
  obtain ⟨iid, read, linkLocal⟩ := generateLinkLocalAddr_ok generated
  obtain ⟨new, same⟩ := lawful.addrAdd_ok a _ m t (wrapping_ok.mp added)
  have kept : calls.addrs m = calls.addrs s := by
    have later := lawful.randRead s
    rwa [read] at later
  rw [kept] at new same
  exact ⟨iid, m, _, read, linkLocal, new, same⟩

theorem assignLinkLocal_error (lawful : calls.Lawful) {link : Option LinkAttrs}
    {err : AddressError ε} (h : assignLinkLocal calls link s = .error err t) :
    calls.addrs t = calls.addrs s := by
  have read := lawful.randRead s
  rw [← final_generateLinkLocalAddr] at read
  cases bind_error.mp h with
  | inl failed => rwa [failed] at read
  | inr later =>
      obtain ⟨addr, m, generated, failed⟩ := later
      obtain ⟨err', failed, _⟩ := wrapping_error.mp failed
      rw [generated] at read
      exact (lawful.addrAdd_error link _ m err' t failed).trans read

/-- Whichever call fails: both ends get one new address each, or neither, or the primary
alone when it is the peer that fails. -/
theorem configureIPv6LinkLocal_configures (lawful : calls.Lawful) {p : Pair} {b : LinkAttrs}
    (primary : p.primary = some a) (peer : p.peer = some b) (s : σ) :
    Configures calls s (p.configureIPv6LinkLocal calls s) a.index b.index := by
  rw [Pair.configureIPv6LinkLocal, primary, peer]
  refine ⟨fun t h => ?_, fun err t h => ?_, fun err t h => ?_⟩
  · obtain ⟨_, m, first, second⟩ := bind_ok.mp h
    exact ⟨m, assignLinkLocal_ok lawful (wrapping_ok.mp first),
      assignLinkLocal_ok lawful (wrapping_ok.mp second)⟩
  · cases bind_error.mp h with
    | inl failed =>
        obtain ⟨err', failed, _⟩ := wrapping_error.mp failed
        exact assignLinkLocal_error lawful failed
    | inr later =>
        obtain ⟨_, m, _, failed⟩ := later
        obtain ⟨err', _, wrong⟩ := wrapping_error.mp failed
        contradiction
  · cases bind_error.mp h with
    | inl failed =>
        obtain ⟨err', _, wrong⟩ := wrapping_error.mp failed
        contradiction
    | inr later =>
        obtain ⟨_, m, first, failed⟩ := later
        obtain ⟨err', failed, _⟩ := wrapping_error.mp failed
        exact ⟨m, assignLinkLocal_ok lawful (wrapping_ok.mp first),
          assignLinkLocal_error lawful failed⟩

/-! ## A table of addresses that keeps the laws -/

structure AddressTable where
  /-- The indices of the links that there are. -/
  links : List Nat
  addrs : Nat → List IPNet
  /-- The interface IDs in the order in which they are read, and how many have been. -/
  random : Nat → Region 8
  reads : Nat

/-- An address can be added once, to a link that there is. `rand.Read` does not fail. -/
def AddressTable.system : AddressCalls AddressTable NetlinkError where
  addrs := fun t i => {addr | addr ∈ t.addrs i}
  randRead := fun t => .ok (t.random t.reads) { t with reads := t.reads + 1 }
  addrAdd := fun link addr t =>
    match link with
    | none => .error (.other "no link") t
    | some a =>
      if a.index ∉ t.links then
        .error (.errno enodev) t
      else if addr ∈ t.addrs a.index then
        .error (.errno 17) t
      else
        .ok () { t with addrs := Function.update t.addrs a.index (addr :: t.addrs a.index) }

theorem AddressTable.system_lawful : system.Lawful where
  randRead := fun _ => rfl
  addrAdd_ok := by
    intro a addr t t' h
    simp only [system] at h ⊢
    split at h
    next => contradiction
    next =>
      split at h
      next => contradiction
      next new =>
        obtain ⟨_, rfl⟩ := EStateM.Result.ok.inj h
        refine ⟨new, ?_⟩
        funext k
        by_cases same : k = a.index
        · subst same
          simp only [Function.update_self]
          ext b
          exact List.mem_cons
        · simp only [Function.update_of_ne same]
  addrAdd_error := by
    intro link addr t err t' h
    simp only [system] at h ⊢
    split at h
    · rw [← (EStateM.Result.error.inj h).2]
    · split at h
      · rw [← (EStateM.Result.error.inj h).2]
      · split at h
        · rw [← (EStateM.Result.error.inj h).2]
        · contradiction

/-- The link with index 3, the peer, has been deleted. -/
def oneAddressTable : AddressTable :=
  ⟨[2], fun _ => [], fun k => .ofWord64 .big (0x0123456789abcdef + .ofNat k), 0⟩

def nk0 : Pair := ⟨some ⟨"nk0", 2⟩, some ⟨"nk0p", 3⟩, 2, 3⟩

theorem oneAddress_configures :
    Configures AddressTable.system oneAddressTable
      (nk0.configureIPv6LinkLocal AddressTable.system oneAddressTable) 2 3 :=
  configureIPv6LinkLocal_configures (p := nk0) (a := ⟨"nk0", 2⟩) (b := ⟨"nk0p", 3⟩)
    AddressTable.system_lawful rfl rfl oneAddressTable

example : outcome (nk0.configureIPv6LinkLocal AddressTable.system oneAddressTable) =
    .error (.peer (.addAddress (.errno enodev))) := rfl

end Xcnf.Netkit
