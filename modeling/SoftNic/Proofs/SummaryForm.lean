import SoftNic.Proofs.InsideFrame
import SoftNic.Text.Lines

/-! # What every summary looks like

The headers of a summary, its payload and the reason why the search ended are not
independent.  `Consistent` says how they hang together: an inner header comes with the outer
ones that lead to it, the ending is decided by what was found, and in a complete summary the
headers, the payload and the declared end of the packet stand in this order inside the frame.
The length of a transport header is no part of a summary; it is what the header itself
declares (`TransportHeader.HasSize`).

Since a complete summary has a payload, the one line without an end is never written, and
where the last bar of a line stands decides how the line ends (`endsIn_iff`).
**`form_of_every_summary` puts this together**: nothing is taken from outside of the frame,
the summary is consistent, and its line ends in the one way that belongs to its ending.
-/
namespace SoftNic

open Dissection

variable {bs s : List UInt8} {start count k : Nat}

namespace Dissection

/-! ## Fields of a part of a frame -/

theorem span?_of_drop (hk : k ≤ bs.length) (h : span? (bs.drop k) start count = some s) :
    span? bs (k + start) count = some s := by
  obtain ⟨hle, rfl⟩ := span?_eq_some_iff.mp h
  rw [List.length_drop] at hle
  refine span?_eq_some_iff.mpr ⟨by omega, ?_⟩
  rw [List.drop_drop]

theorem span?_of_take (h : span? (bs.take k) start count = some s) :
    span? bs start count = some s := by
  have grown := span?_append h (bs.drop k)
  rwa [List.take_append_drop] at grown

end Dissection

/-- The number of bytes of a transport header at a position of a frame: eight, or four times
the upper half of its thirteenth byte. -/
inductive TransportHeader.HasSize (bs : List UInt8) (start : Nat) : TransportHeader → Nat → Prop
  | udp {h : UdpHeader} : HasSize bs start (udp h) 8
  | tcp {h : TcpHeader} {b : UInt8} (hb : byte? bs (start + 12) = some b) :
    HasSize bs start (tcp h) (4 * (b.toNat / 16))

/-- A span of the payload of a packet is a span of the packet. -/
theorem Ipv4Header.span?_of_payload {i : Ipv4Header} (hi : i.At bs)
    (h : span? (i.payload bs) start count = some s) :
    span? bs (i.headerLength + start) count = some s := by
  have hle : i.headerLength ≤ (bs.take i.totalLength.toNat).length := by
    have := hi.total_le
    have := hi.header_le_total
    rw [List.length_take]
    omega
  exact span?_of_take (span?_of_drop hle h)

/-- A byte of the payload of a packet is a byte of the frame. -/
theorem Ipv4Header.byte?_of_payload {i : Ipv4Header} {b : UInt8}
    (he : EthernetHeader.size ≤ bs.length) (hi : i.At (bs.drop EthernetHeader.size))
    (hb : byte? (i.payload (bs.drop EthernetHeader.size)) start = some b) :
    byte? bs (EthernetHeader.size + i.headerLength + start) = some b := by
  obtain ⟨s, hs, hv⟩ := byte?_eq_some_iff.mp hb
  refine byte?_eq_some_iff.mpr ⟨s, ?_, hv⟩
  rw [Nat.add_assoc]
  exact span?_of_drop he (span?_of_payload hi hs)

/-- A transport header and what it leaves for the payload fill no more than there is. -/
theorem TransportHeader.At.exists_size {t : TransportHeader} {i : Ipv4Header} {n : Nat}
    (he : EthernetHeader.size ≤ bs.length) (hi : i.At (bs.drop EthernetHeader.size))
    (ht : t.At (i.payload (bs.drop EthernetHeader.size)) n) :
    ∃ size, t.HasSize bs (EthernetHeader.size + i.headerLength) size ∧
      i.headerLength + size + n ≤ i.totalLength.toNat := by
  have hlen := Ipv4Header.length_payload hi
  have hle := hi.header_le_total
  cases ht with
  | @udp h n ha =>
    have hsize : 8 ≤ h.length.toNat := ha.size_le
    have hn : n = h.length.toNat - 8 := ha.payload
    have := ha.length_le
    exact ⟨8, .udp, by omega⟩
  | tcp ha =>
    obtain ⟨b, hb, -, hfit, hn⟩ := ha.offset
    exact ⟨_, .tcp (Ipv4Header.byte?_of_payload he hi hb), by omega⟩

namespace Summary

/-! ## What is found together -/

/-- The parts of a summary fit each other and the frame. -/
structure Consistent (bs : List UInt8) (s : Summary) : Prop where
  length : s.length = bs.length
  ipv4 : ∀ i, s.ipv4 = some i → ∃ e, s.ethernet = some e ∧ e.etherType = 0x0800
  udp : ∀ h, s.transport = some (.udp h) → ∃ i, s.ipv4 = some i ∧ i.protocol = 17
  tcp : ∀ h, s.transport = some (.tcp h) → ∃ i, s.ipv4 = some i ∧ i.protocol = 6
  complete_iff_transport : s.ending = .complete ↔ s.transport.isSome
  complete_iff_payload : s.ending = .complete ↔ s.payloadLength.isSome
  notIpv4_iff : s.ending = .notIpv4 ↔ ∃ e, s.ethernet = some e ∧ e.etherType ≠ 0x0800
  otherTransport_iff : s.ending = .otherTransport ↔
    ∃ i, s.ipv4 = some i ∧ i.protocol ≠ 6 ∧ i.protocol ≠ 17
  truncated_iff : s.ending = .truncated ↔ s.transport = none ∧
    (¬ ∃ e, s.ethernet = some e ∧ e.etherType ≠ 0x0800) ∧
    ¬ ∃ i, s.ipv4 = some i ∧ i.protocol ≠ 6 ∧ i.protocol ≠ 17
  bounds : s.ending = .complete → ∃ i t n size, s.ipv4 = some i ∧ s.transport = some t ∧
    s.payloadLength = some n ∧ t.HasSize bs (14 + i.headerLength) size ∧
    14 + i.headerLength + size + n ≤ 14 + i.totalLength.toNat ∧
    14 + i.totalLength.toNat ≤ s.length

theorem not_hasTransport_iff {p : UInt8} : ¬ HasTransport p ↔ p ≠ 6 ∧ p ≠ 17 := by
  rw [HasTransport, not_or]
  exact And.comm

/-- The declared end of a packet is inside of the frame. -/
theorem total_le {e : EthernetHeader} {i : Ipv4Header} (he : e.At bs)
    (hi : i.At (bs.drop EthernetHeader.size)) : 14 + i.totalLength.toNat ≤ bs.length := by
  have hsize : 14 ≤ bs.length := he.size_le
  have htotal : i.totalLength.toNat ≤ (bs.drop 14).length := hi.total_le
  rw [List.length_drop] at htotal
  omega

/-- The outcome of every search is consistent. -/
theorem Search.consistent {s : Summary} (h : Search bs s) : Consistent bs s := by
  cases h with
  | short he => constructor <;> simp
  | notIpv4 he ht =>
    rw [EthernetHeader.ipv4Type] at ht
    constructor <;> simp [ht]
  | shortPacket he ht hi =>
    rw [EthernetHeader.ipv4Type] at ht
    constructor <;> simp [ht]
  | otherTransport he ht hi hp =>
    rw [EthernetHeader.ipv4Type] at ht
    rw [not_hasTransport_iff] at hp
    constructor <;> simp [ht, hp]
  | shortTransport he ht hi hp hr =>
    rw [EthernetHeader.ipv4Type] at ht
    rw [← not_not (a := HasTransport _), not_hasTransport_iff] at hp
    constructor <;> simp [ht, hp]
  | @complete e i t n he ht hi hp hr =>
    rw [EthernetHeader.ipv4Type] at ht
    have hp' := hasTransport_protocol t
    rw [← hp, ← not_not (a := HasTransport _), not_hasTransport_iff] at hp'
    obtain ⟨size, hsize, hfit⟩ := hr.exists_size he.size_le hi
    constructor
    case udp =>
      intro h hu
      cases Option.some.inj hu
      exact ⟨i, rfl, hp⟩
    case tcp =>
      intro h hu
      cases Option.some.inj hu
      exact ⟨i, rfl, hp⟩
    case bounds =>
      intro _
      refine ⟨i, t, n, size, rfl, rfl, rfl, hsize, ?_, total_le he hi⟩
      omega
    -- The rest is about what is there and what is not.
    all_goals simp [ht, hp']

/-! ## Ends of lines -/

/-- What may stand at the end of the line of a summary. -/
inductive LineEnd : Ending → String → Prop
  | payload (n : Nat) : LineEnd .complete (" | payload " ++ toString n)
  | truncated : LineEnd .truncated " | truncated"
  | notIpv4 : LineEnd .notIpv4 " | non-IP"
  | otherTransport : LineEnd .otherTransport " | non-UDP/TCP"

/-- A line ends in the way of an ending. -/
def EndsIn (line : String) (k : Ending) : Prop :=
  ∃ front tail, LineEnd k tail ∧ line = front ++ tail

/-- There is one bar. -/
theorem LineEnd.exists_bar {k : Ending} {tail : String} (h : LineEnd k tail) :
    ∃ rest, tail.toList = [' '] ++ '|' :: rest ∧ '|' ∉ rest := by
  cases h with
  | payload n =>
    refine ⟨" payload ".toList ++ Nat.toDigits 10 n, ?_, ?_⟩
    · simp
    · rw [List.mem_append, not_or]
      refine ⟨by simp, fun h => ?_⟩
      have digit := Nat.isDigit_of_mem_toDigits (by decide) (by decide) h
      exact absurd digit (by decide)
  | truncated => exact ⟨" truncated".toList, rfl, by simp⟩
  | notIpv4 => exact ⟨" non-IP".toList, rfl, by simp⟩
  | otherTransport => exact ⟨" non-UDP/TCP".toList, rfl, by simp⟩

/-- The text tells the ending. -/
theorem LineEnd.ending_eq {k k' : Ending} {tail tail' : String} (h : LineEnd k tail)
    (h' : LineEnd k' tail') (ht : tail.toList = tail'.toList) : k = k' := by
  cases h <;> cases h' <;> simp at ht ⊢

/-- Two texts without bars that stand behind the last bar of a line are one. -/
theorem eq_of_append_bar {front front' rest rest' : List Char} (hr : '|' ∉ rest)
    (hr' : '|' ∉ rest') (h : front ++ '|' :: rest = front' ++ '|' :: rest') : rest = rest' := by
  have reversed := congrArg (fun l => Text.cut? '|' l.reverse) h
  simp only [List.reverse_append, List.reverse_cons, List.append_assoc,
    List.singleton_append] at reversed
  rw [Text.cut?_append (by simpa using hr), Text.cut?_append (by simpa using hr')] at reversed
  simpa using (congrArg (Option.map Prod.fst) reversed)

/-- A line ends in one way only. -/
theorem EndsIn.unique {line : String} {k k' : Ending} (h : EndsIn line k) (h' : EndsIn line k') :
    k = k' := by
  obtain ⟨front, tail, ht, rfl⟩ := h
  obtain ⟨front', tail', ht', hline⟩ := h'
  obtain ⟨rest, hr, hbar⟩ := ht.exists_bar
  obtain ⟨rest', hr', hbar'⟩ := ht'.exists_bar
  have chars := congrArg String.toList hline
  rw [String.toList_append, String.toList_append, hr, hr', ← List.append_assoc,
    ← List.append_assoc] at chars
  have same := eq_of_append_bar hbar hbar' chars
  exact ht.ending_eq ht' (by rw [hr, hr', same])

/-- The line of a consistent summary ends in the way of its ending. -/
theorem Consistent.endsIn {s : Summary} (h : Consistent bs s) : EndsIn s.toText s.ending := by
  refine ⟨_, endingText s.ending s.payloadLength, ?_, rfl⟩
  cases he : s.ending with
  | complete =>
    obtain ⟨n, hn⟩ := Option.isSome_iff_exists.mp (h.complete_iff_payload.mp he)
    rw [hn]
    exact .payload n
  | truncated => exact .truncated
  | notIpv4 => exact .notIpv4
  | otherTransport => exact .otherTransport

theorem Consistent.endsIn_iff {s : Summary} (h : Consistent bs s) {k : Ending} :
    EndsIn s.toText k ↔ k = s.ending := by
  constructor
  · intro hk
    exact hk.unique h.endsIn
  · rintro rfl
    exact h.endsIn

/-- **The form of every summary.**  Nothing is taken from outside of the frame; the parts of
the summary fit each other and the frame; no complete summary lacks its payload; and the line
ends in one of four ways, the one of the summary's ending. -/
theorem form_of_every_summary (bs : List UInt8) :
    takeHeaders bs = .ok (ofBytes bs) ∧ Consistent bs (ofBytes bs) ∧
      ¬ ((ofBytes bs).ending = .complete ∧ (ofBytes bs).payloadLength = none) ∧
      ∀ k, EndsIn (ofBytes bs).toText k ↔ k = (ofBytes bs).ending := by
  have consistent := (search_ofBytes bs).consistent
  refine ⟨takeHeaders_eq bs, consistent, ?_, fun _ => consistent.endsIn_iff⟩
  rintro ⟨hc, hn⟩
  have hsome := consistent.complete_iff_payload.mp hc
  rw [hn] at hsome
  simp at hsome

end Summary
end SoftNic
