import Xcnf.Flow.Decode

/-!
# Samples that are not records

`UnmarshalBinary` never looks at the length of its sample. It panics where an index or a
slice expression does: below forty bytes of length, or forty-eight of capacity
(`unmarshalBinary_total_iff`). In between it takes the timestamp from the spare capacity
behind the sample (`readsInside_iff`). Its result `ok` is never false, so that nothing is
ever skipped: it does what its caller relies on for samples of forty-eight bytes and more,
and for no others (`rejectsMalformed_iff`).
-/

namespace Xcnf.Flow

variable {s : GoSlice UInt8}

/-! ## When it returns -/

/-- The flags are indexed, and the timestamp is sliced. -/
theorem unmarshalBinary_bounds {r : Option Packet} (h : unmarshalBinary s = .ok r) :
    40 ≤ s.len ∧ 48 ≤ s.cap := by
  rw [unmarshalBinary, Checked.bind_eq_ok] at h
  obtain ⟨src, hsrc, h⟩ := h
  obtain ⟨srcIP, hsrcIP⟩ := Addr.fromSlice_of_length (GoSlice.slice_len hsrc)
  rw [hsrcIP, Checked.bind_eq_ok] at h
  obtain ⟨dst, hdst, h⟩ := h
  obtain ⟨dstIP, hdstIP⟩ := Addr.fromSlice_of_length (GoSlice.slice_len hdst)
  rw [hdstIP] at h
  simp only [Checked.bind_eq_ok] at h
  obtain ⟨_, _, _, _, _, _, _, _, _, _, _, _, _, _, _, ack, _, ts, _, _⟩ := h
  exact ⟨GoSlice.index_lt ack, GoSlice.slice_le_cap ts⟩

/-- From forty bytes on, only the capacity matters. -/
theorem unmarshalBinary_upToCap (long : 40 ≤ s.len) :
    unmarshalBinary s.upToCap = unmarshalBinary s := by
  have index (i : Nat) (hi : i < 40) : s.upToCap.index i = s.index i :=
    s.index_upToCap (Nat.lt_of_lt_of_le hi long)
  simp only [unmarshalBinary, GoSlice.slice_upToCap, index 36 (by decide), index 37 (by decide),
    index 38 (by decide), index 39 (by decide)]

theorem unmarshalBinary_spare (long : 40 ≤ s.len) {r : Record}
    (spare : s.backing.take 48 = r.bytes) :
    unmarshalBinary s = .ok (some (Packet.ofRecord r)) := by
  have starts : s.upToCap.StartsWith r := by
    rw [GoSlice.StartsWith, GoSlice.upToCap_elems]
    exact spare
  rw [← unmarshalBinary_upToCap long, unmarshalBinary_record starts]

/-- The record at the front of the backing array. -/
theorem exists_spare (room : 48 ≤ s.cap) : ∃ r : Record, s.backing.take 48 = r.bytes := by
  refine ⟨⟨s.backing.take 48, ?_⟩, rfl⟩
  rw [List.length_take]
  exact Nat.min_eq_left room

/-- `UnmarshalBinary` panics below forty bytes of length, or forty-eight of capacity. -/
theorem unmarshalBinary_total_iff (s : GoSlice UInt8) :
    (∃ r, unmarshalBinary s = .ok r) ↔ 40 ≤ s.len ∧ 48 ≤ s.cap := by
  constructor
  · rintro ⟨r, h⟩
    exact unmarshalBinary_bounds h
  · rintro ⟨long, room⟩
    obtain ⟨r, spare⟩ := exists_spare room
    exact ⟨_, unmarshalBinary_spare long spare⟩

/-! ## What it reads -/

/-- What is decoded depends on the bytes that the sample shows, not on those behind it. -/
def ReadsInside (s : GoSlice UInt8) : Prop :=
  ∀ t, t.elems = s.elems → ∀ p q, unmarshalBinary s = .ok (some p) →
    unmarshalBinary t = .ok (some q) → q = p

/-- Samples that show the same forty-eight bytes decode to the same packet. -/
theorem readsInside_of_le (whole : 48 ≤ s.len) : ReadsInside s := by
  intro t same p q hp hq
  obtain ⟨r, hr⟩ := GoSlice.exists_startsWith whole
  have hr' : t.StartsWith r := by rwa [GoSlice.StartsWith, same]
  rw [unmarshalBinary_record hr] at hp
  rw [unmarshalBinary_record hr'] at hq
  exact Option.some.inj (Except.ok.inj (hq.symm.trans hp))

/-- A sample with another byte at the end of the record, behind what it shows. -/
theorem exists_other_last (short : s.len < 48) (room : 48 ≤ s.cap) :
    ∃ t : GoSlice UInt8, t.elems = s.elems ∧ t.len = s.len ∧ t.cap = s.cap ∧
      s.backing[47]? ≠ t.backing[47]? := by
  have last : 47 < s.backing.length := room
  let b := s.backing[47] + 1
  refine ⟨⟨s.backing.set 47 b, s.len, ?_⟩, ?_, rfl, ?_, ?_⟩
  · rw [List.length_set]
    exact s.len_le
  · exact List.take_set_of_le (Nat.le_of_lt_succ short)
  · exact List.length_set
  · rw [List.getElem?_set_self last, List.getElem?_eq_getElem last, ne_eq, Option.some.injEq]
    simp [b]

/-- The packet shows the last byte of its record, as a part of the timestamp. -/
theorem ofRecord_last {r r' : Record} (h : Packet.ofRecord r = Packet.ofRecord r') :
    r.bytes[47]? = r'.bytes[47]? := by
  have stamp : (r.sub 40 8).toWord64 .little = (r'.sub 40 8).toWord64 .little :=
    congrArg Packet.timestamp h
  have bytes : (r.sub 40 8).bytes = (r'.sub 40 8).bytes :=
    ByteOrder.little.word64_injective (Region.size _) (Region.size _) stamp
  have at47 (u : Record) : (u.sub 40 8).bytes[7]? = u.bytes[47]? := by
    change ((u.bytes.drop 40).take 8)[7]? = _
    rw [List.getElem?_take_of_lt (by decide), List.getElem?_drop]
  rw [← at47 r, bytes, at47 r']

/-- Between forty and forty-eight bytes the timestamp comes from behind the sample. -/
theorem readsInside_iff (s : GoSlice UInt8) :
    ReadsInside s ↔ (40 ≤ s.len → 48 ≤ s.cap → 48 ≤ s.len) := by
  constructor
  · intro inside long room
    by_contra short
    obtain ⟨t, same, len, cap, other⟩ := exists_other_last (Nat.not_le.mp short) room
    obtain ⟨r, hr⟩ := exists_spare room
    obtain ⟨r', hr'⟩ := exists_spare (show 48 ≤ t.cap by rwa [cap])
    have hp := unmarshalBinary_spare long hr
    have hq := unmarshalBinary_spare (show 40 ≤ t.len by rwa [len]) hr'
    have at47 := ofRecord_last (inside t same _ _ hp hq)
    rw [← hr, ← hr', List.getElem?_take_of_lt (by decide),
      List.getElem?_take_of_lt (by decide)] at at47
    exact other at47.symm
  · intro whole t same p q hp hq
    obtain ⟨long, room⟩ := unmarshalBinary_bounds hp
    exact readsInside_of_le (whole long room) t same p q hp hq

/-! ## What `Run` relies on -/

/-- A sample never makes `UnmarshalBinary` panic, is rejected if it is shorter than a
record, and is decoded from the bytes that it shows. -/
structure RejectsMalformed (s : GoSlice UInt8) : Prop where
  total : ∃ r, unmarshalBinary s = .ok r
  rejects : s.len < 48 → unmarshalBinary s = .ok none
  inside : ReadsInside s

/-- Only samples that are long enough for a record are treated as they should be. -/
theorem rejectsMalformed_iff (s : GoSlice UInt8) : RejectsMalformed s ↔ 48 ≤ s.len := by
  constructor
  · intro handled
    by_contra short
    exact unmarshalBinary_ne_none s (handled.rejects (Nat.not_le.mp short))
  · intro whole
    have room : 48 ≤ s.cap := Nat.le_trans whole s.len_le
    have long : 40 ≤ s.len := Nat.le_trans (by decide) whole
    exact ⟨(unmarshalBinary_total_iff s).mpr ⟨long, room⟩,
      fun short => absurd whole (Nat.not_le.mpr short), readsInside_of_le whole⟩

/-- A sample of which the last seven bytes are missing. -/
def truncatedSample : GoSlice UInt8 := .ofList (List.replicate 41 0)

/-- It is not skipped: `UnmarshalBinary` panics. -/
theorem truncatedSample_refutes_rejectsMalformed :
    ¬ ∀ s : GoSlice UInt8, RejectsMalformed s := by
  intro claimed
  have bounds := (unmarshalBinary_total_iff truncatedSample).mp (claimed truncatedSample).total
  exact absurd bounds.2 (by decide)

/-- With spare capacity it is decoded, and the bytes behind it make the timestamp. -/
example : (unmarshalBinary ⟨List.replicate 41 0 ++ List.replicate 7 1, 41, by decide⟩).map
    (Option.map Packet.timestamp) = .ok (some 72340172838076672) := by decide +kernel

end Xcnf.Flow
