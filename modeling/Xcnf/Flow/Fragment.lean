import Xcnf.Flow.Segment

/-!
# Fragments

Only the first fragment of a datagram has a transport header. `flat` does not look at the
fragment offset: in any other fragment it takes the payload for a header, and reports the
ports that it finds there, if the fragment is long enough and does not look like TCP
without SYN (`noInventedFlow_iff`). So there can be as many events for one datagram as it
has fragments.
-/

namespace Xcnf.Flow

namespace Frame

/-- The word of the IPv4 header with the fragment offset, in units of eight bytes. -/
def fragmentWord (data : List UInt8) : UInt16 := (Buffer.peek data 20 2).toWord16 .big

def fragmentOffset (data : List UInt8) : Nat := (fragmentWord data &&& 0x1fff).toNat

def moreFragments (data : List UInt8) : Bool := fragmentWord data &&& 0x2000 != 0

/-- What is behind the IPv4 header, with the padding of a short frame. -/
def ipv4Payload (data : List UInt8) : List UInt8 := data.drop (realL4 data)

end Frame

/-! ## Datagrams and their fragments -/

structure Datagram where
  protocol : UInt8
  saddr : Region 4
  daddr : Region 4
  /-- The transport header and what is behind it. -/
  payload : List UInt8

structure Fragment where
  offset : Nat
  more : Bool
  bytes : List UInt8

/-- A payload is cut behind any positive number of units of eight bytes, any number of times. -/
inductive Cuts : List UInt8 → List (List UInt8) → Prop where
  | last (bytes : List UInt8) : Cuts bytes [bytes]
  | cut {bytes payload : List UInt8} {pieces : List (List UInt8)} (some : bytes ≠ [])
      (units : 8 ∣ bytes.length) (rest : Cuts payload pieces) :
      Cuts (bytes ++ payload) (bytes :: pieces)

/-- The fragments for the pieces of a payload, the first one at the given offset. -/
def fragmentsFrom (offset : Nat) : List (List UInt8) → List Fragment
  | [] => []
  | bytes :: pieces =>
    { offset := offset
      more := !pieces.isEmpty
      bytes := bytes } :: fragmentsFrom (offset + bytes.length / 8) pieces

/-- The frame carries this fragment of the datagram. -/
structure Carries (d : Datagram) (fragment : Fragment) (skb : SkBuff) : Prop extends
    IsIpv4 skb where
  protocol : Frame.protocol skb.data = d.protocol
  saddr : Frame.saddr skb.data = d.saddr
  daddr : Frame.daddr skb.data = d.daddr
  offset : Frame.fragmentOffset skb.data = fragment.offset
  more : Frame.moreFragments skb.data = fragment.more
  bytes : fragment.bytes <+: Frame.ipv4Payload skb.data

/-- The frames that the program is invoked for carry the fragments of the datagram, each of
them once, in any order. -/
def Fragmented (d : Datagram) (frames : List (Helpers × SkBuff)) : Prop :=
  ∃ pieces sent, Cuts d.payload pieces ∧ List.Forall₂ (Carries d) (fragmentsFrom 0 pieces) sent ∧
    (frames.map Prod.snd).Perm sent

/-- Later fragments have later offsets. -/
theorem Cuts.offsets {payload : List UInt8} {pieces : List (List UInt8)}
    (cuts : Cuts payload pieces) (offset : Nat) :
    (∀ k ∈ (fragmentsFrom offset pieces).map Fragment.offset, offset ≤ k) ∧
      ((fragmentsFrom offset pieces).map Fragment.offset).Pairwise (· < ·) := by
  induction cuts generalizing offset with
  | last bytes => simp [fragmentsFrom]
  | @cut bytes payload pieces some units _ ih =>
      obtain ⟨later, increasing⟩ := ih (offset + bytes.length / 8)
      have unit : 1 ≤ bytes.length / 8 := by
        obtain ⟨n, hn⟩ := units
        have positive : 0 < bytes.length := List.length_pos_of_ne_nil some
        omega
      simp only [fragmentsFrom, List.map_cons, List.mem_cons, List.pairwise_cons]
      refine ⟨?_, ?_, increasing⟩
      · rintro k (rfl | hk)
        · exact Nat.le_refl _
        · have := later k hk
          omega
      · intro k hk
        have := later k hk
        omega

theorem Carries.offsets {d : Datagram} {fragments : List Fragment} {sent : List SkBuff}
    (h : List.Forall₂ (Carries d) fragments sent) :
    sent.map (fun skb => Frame.fragmentOffset skb.data) = fragments.map Fragment.offset := by
  induction h with
  | nil => rfl
  | cons first _ ih => rw [List.map_cons, List.map_cons, first.offset, ih]

/-- At most one of the frames carries a first fragment. -/
theorem Fragmented.first_once {d : Datagram} {frames : List (Helpers × SkBuff)}
    (h : Fragmented d frames) :
    (frames.countP fun frame => Frame.fragmentOffset frame.2.data = 0) ≤ 1 := by
  obtain ⟨pieces, sent, cuts, carries, perm⟩ := h
  have same : (frames.map fun frame => Frame.fragmentOffset frame.2.data).Perm
      ((fragmentsFrom 0 pieces).map Fragment.offset) := by
    have mapped := perm.map fun skb => Frame.fragmentOffset skb.data
    rwa [List.map_map, Carries.offsets carries] at mapped
  have distinct : ((fragmentsFrom 0 pieces).map Fragment.offset).Nodup :=
    (cuts.offsets 0).2.imp Nat.ne_of_lt
  calc
    (frames.countP fun frame => Frame.fragmentOffset frame.2.data = 0)
      = (frames.map fun frame => Frame.fragmentOffset frame.2.data).count 0 := by
        rw [List.count, List.countP_map]
        rfl
    _ = ((fragmentsFrom 0 pieces).map Fragment.offset).count 0 := same.count_eq 0
    _ ≤ 1 := List.nodup_iff_count_le_one.mp distinct 0

/-! ## The frames of a datagram, one after the other -/

/-- The events of several invocations. -/
def flatAll (order : ByteOrder) : List (Helpers × SkBuff) → Access (List Record)
  | [] => return []
  | (env, skb) :: frames => do
    let (_, events) ← flat order env skb
    let later ← flatAll order frames
    return events ++ later

/-- If only the frames that have a property lead to an event, and only to one, there are at
most as many events as such frames. -/
theorem flatAll_length {order : ByteOrder} {P : SkBuff → Prop} [DecidablePred P]
    {frames : List (Helpers × SkBuff)}
    (silent : ∀ frame ∈ frames, ¬ P frame.2 →
      ∃ code, flat order frame.1 frame.2 = .ok (code, [])) :
    ∃ events, flatAll order frames = .ok events ∧
      events.length ≤ frames.countP fun frame => P frame.2 := by
  induction frames with
  | nil => exact ⟨[], rfl, Nat.le_refl 0⟩
  | cons frame frames ih =>
      obtain ⟨later, hlater, few⟩ :=
        ih fun frame' h => silent frame' (List.mem_cons_of_mem frame h)
      obtain ⟨env, skb⟩ := frame
      have total : ∃ code events, flat order env skb = .ok (code, events) ∧ events.length ≤ 1 := by
        refine ⟨_, _, flat_eq order env skb, ?_⟩
        split <;> simp
      obtain ⟨code, events, hflat, once⟩ := total
      refine ⟨events ++ later, ?_, ?_⟩
      · rw [flatAll, hflat, Checked.ok_bind]
        simp only [hlater, Checked.ok_bind]
        rfl
      · rw [List.length_append, List.countP_cons]
        by_cases h : P skb
        · simp only [h, decide_true, if_true]
          omega
        · obtain ⟨code', quiet⟩ := silent (env, skb) List.mem_cons_self h
          have none : events = [] := by
            rw [hflat] at quiet
            exact (Prod.mk.inj (Except.ok.inj quiet)).2
          simp only [none, List.length_nil]
          omega

/-! ## What is made of fragments -/

/-- An IPv4 frame that carries any fragment but the first. -/
structure LaterFragment (skb : SkBuff) : Prop where
  etherType : Frame.etherType skb.data = ethPIp
  offset : Frame.fragmentOffset skb.data ≠ 0

/-- The helpers succeed, and what is behind the first twenty bytes of the IPv4 header is
long enough for a TCP header and, if TCP is announced, has SYN where TCP has it. -/
structure TakenForSegment (env : Helpers) (skb : SkBuff) : Prop where
  pulled : 0 ≤ env.skbPullData
  stored : 0 ≤ env.ringbufOutput
  unicast : skb.pktType ≠ packetBroadcast ∧ skb.pktType ≠ packetMulticast
  room : Frame.l4 + sizeofTcphdr ≤ skb.data.length
  payload : Frame.protocol skb.data = ipprotoUdp ∨
    Frame.protocol skb.data = ipprotoTcp ∧ Tcphdr.syn (Frame.tcpFlags skb.data) = true

/-- Later fragments lead to no event, and all the fragments of a datagram to one at most. -/
structure NoInventedFlow (order : ByteOrder) (frames : List (Helpers × SkBuff)) : Prop where
  later : ∀ frame ∈ frames, LaterFragment frame.2 →
    ∃ code, flat order frame.1 frame.2 = .ok (code, [])
  once : ∀ d, Fragmented d frames → ∃ events, flatAll order frames = .ok events ∧ events.length ≤ 1

theorem LaterFragment.silent_iff {skb : SkBuff} (h : LaterFragment skb) (order : ByteOrder)
    (env : Helpers) :
    (∃ code, flat order env skb = .ok (code, [])) ↔ ¬ TakenForSegment env skb := by
  rw [flat_silent_iff, not_iff_not]
  constructor
  · rintro ⟨pulled, stored, broad, multi, room, _, traced⟩
    exact ⟨pulled, stored, ⟨broad, multi⟩, room, traced.symm⟩
  · intro taken
    exact ⟨taken.pulled, taken.stored, taken.unicast.1, taken.unicast.2, taken.room, h.etherType,
      taken.payload.symm⟩

/-- No flow is invented if and only if no later fragment can be taken for a segment. -/
theorem noInventedFlow_iff (order : ByteOrder) (frames : List (Helpers × SkBuff)) :
    NoInventedFlow order frames ↔
      ∀ frame ∈ frames, LaterFragment frame.2 → ¬ TakenForSegment frame.1 frame.2 := by
  constructor
  · intro none frame hframe later
    exact (later.silent_iff order frame.1).mp (none.later frame hframe later)
  · intro quiet
    have silent : ∀ frame ∈ frames, LaterFragment frame.2 →
        ∃ code, flat order frame.1 frame.2 = .ok (code, []) :=
      fun frame hframe later => (later.silent_iff order frame.1).mpr (quiet frame hframe later)
    refine ⟨silent, fun d fragmented => ?_⟩
    have others : ∀ frame ∈ frames, ¬ Frame.fragmentOffset frame.2.data = 0 →
        ∃ code, flat order frame.1 frame.2 = .ok (code, []) := by
      intro frame hframe notFirst
      by_cases ipv4 : Frame.etherType frame.2.data = ethPIp
      · exact silent frame hframe ⟨ipv4, notFirst⟩
      · exact flat_silent_iff.mpr fun all => ipv4 all.2.2.2.2.2.1
    obtain ⟨events, hevents, few⟩ :=
      flatAll_length (P := fun skb => Frame.fragmentOffset skb.data = 0) others
    exact ⟨events, hevents, Nat.le_trans few fragmented.first_once⟩

/-- A frame with a fragment, for the word of the header with the offset. -/
def Frame.ofFragment (word : UInt16) (protocol : UInt8) (saddr daddr : Region 4)
    (bytes : List UInt8) : List UInt8 :=
  List.replicate 12 0 ++ [0x08, 0x00] ++ [0x45, 0, 0, 44, 0, 7] ++ ByteOrder.big.bytes16 word ++
    [64, protocol, 0, 0] ++ saddr.bytes ++ daddr.bytes ++ bytes

/-- A datagram of 48 bytes from port 53 to port 40000. -/
def cutDatagram : Datagram where
  protocol := ipprotoUdp
  saddr := clientIp
  daddr := serverIp
  payload := Frame.udpSegment 53 40000 ++ List.replicate 4 0 ++ List.replicate 24 1

/-- It is sent in two fragments of 24 bytes. -/
def twoFragments : List (Helpers × SkBuff) :=
  [(.succeedAt 1000,
      { pktType := 0
        data := Frame.ofFragment 0x2000 ipprotoUdp clientIp serverIp
          (Frame.udpSegment 53 40000 ++ List.replicate 4 0) }),
    (.succeedAt 1001,
      { pktType := 0
        data := Frame.ofFragment 3 ipprotoUdp clientIp serverIp (List.replicate 24 1) })]

theorem twoFragments_fragmented : Fragmented cutDatagram twoFragments := by
  refine ⟨[Frame.udpSegment 53 40000 ++ List.replicate 4 0, List.replicate 24 1],
    twoFragments.map Prod.snd, ?_, ?_, List.Perm.refl _⟩
  · exact .cut (by decide) (by decide) (.last _)
  · refine .cons ?_ (.cons ?_ .nil)
    · refine ⟨⟨?_, ?_⟩, ?_, ?_, ?_, ?_, ?_, ?_⟩ <;> decide
    · refine ⟨⟨?_, ?_⟩, ?_, ?_, ?_, ?_, ?_, ?_⟩ <;> decide

/-- Both fragments are reported, the second one with ports from the payload. -/
theorem twoFragments_refute_noInventedFlow :
    ¬ ∀ (order : ByteOrder) (frames : List (Helpers × SkBuff)), NoInventedFlow order frames := by
  intro claimed
  obtain ⟨events, run, once⟩ :=
    (claimed .little twoFragments).once cutDatagram twoFragments_fragmented
  have two : (flatAll .little twoFragments).map List.length = .ok 2 := by decide +kernel
  rw [run] at two
  have length : events.length = 2 := Except.ok.inj two
  omega

end Xcnf.Flow
