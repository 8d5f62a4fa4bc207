import Mathlib.Data.Option.Basic
import SoftNic.Dissection.Summary

/-! # Where the fields of a header are found

A header is read from a byte string if every field is found in its place and the lengths that
the header declares fit (`EthernetHeader.At`, `Ipv4Header.At`, `UdpHeader.At`,
`TcpHeader.At`).  Each reader is shown once to find just that (`read?_eq_some_iff`); what
else is said about readers is said of these relations.

A field that is found stays where it is when more bytes follow, and so do the Ethernet and
the IPv4 header (`At.append`).  A TCP header does not: it says nothing about where its
payload ends, so the number of payload bytes is whatever is left.
-/
namespace SoftNic

open Dissection

variable {bs s : List UInt8} {start count n : Nat}

namespace Dissection

/-! ## Fields -/

theorem byte?_eq_some_iff {b : UInt8} :
    byte? bs start = some b ↔ ∃ s, span? bs start 1 = some s ∧ UInt8.ofNat (bigEndian s) = b := by
  rw [byte?, Option.map_eq_some_iff]

theorem word?_eq_some_iff {w : UInt16} :
    word? bs start = some w ↔ ∃ s, span? bs start 2 = some s ∧ UInt16.ofNat (bigEndian s) = w := by
  rw [word?, Option.map_eq_some_iff]

theorem long?_eq_some_iff {w : UInt32} :
    long? bs start = some w ↔ ∃ s, span? bs start 4 = some s ∧ UInt32.ofNat (bigEndian s) = w := by
  rw [long?, Option.map_eq_some_iff]

variable {more : List UInt8}

/-- What is made of a span stays what it is when more bytes follow. -/
theorem field_append {α : Type} {g : List UInt8 → α} {a : α}
    (h : (span? bs start count).map g = some a) :
    (span? (bs ++ more) start count).map g = some a := by
  obtain ⟨s, hs, rfl⟩ := Option.map_eq_some_iff.mp h
  rw [span?_append hs more]
  rfl

theorem byte?_append {b : UInt8} (h : byte? bs start = some b) :
    byte? (bs ++ more) start = some b :=
  field_append h

theorem word?_append {w : UInt16} (h : word? bs start = some w) :
    word? (bs ++ more) start = some w :=
  field_append h

end Dissection

variable {more : List UInt8}

theorem MacAddress.at?_eq_some_iff {a : MacAddress} :
    MacAddress.at? bs start = some a ↔ span? bs start 6 = some a.octets := by
  rw [MacAddress.at?, Option.bind_eq_some_iff]
  constructor
  · rintro ⟨s, hs, ha⟩
    obtain rfl := ofOctets?_eq_some_iff.mp ha
    exact hs
  · intro h
    exact ⟨a.octets, h, ofOctets?_eq_some_iff.mpr rfl⟩

theorem MacAddress.at?_append {a : MacAddress} (h : MacAddress.at? bs start = some a) :
    MacAddress.at? (bs ++ more) start = some a :=
  at?_eq_some_iff.mpr (span?_append (at?_eq_some_iff.mp h) more)

theorem Ipv4Address.at?_eq_some_iff {a : Ipv4Address} :
    Ipv4Address.at? bs start = some a ↔ span? bs start 4 = some a.octets := by
  rw [Ipv4Address.at?, Option.map_eq_some_iff]
  constructor
  · rintro ⟨s, hs, rfl⟩
    exact hs
  · intro h
    exact ⟨a.octets, h, rfl⟩

theorem Ipv4Address.at?_append {a : Ipv4Address} (h : Ipv4Address.at? bs start = some a) :
    Ipv4Address.at? (bs ++ more) start = some a :=
  field_append h

/-! ## Ethernet -/

namespace EthernetHeader

variable {h : EthernetHeader}

/-- A header stands at the beginning of a byte string. -/
structure At (bs : List UInt8) (h : EthernetHeader) : Prop where
  destination : MacAddress.at? bs 0 = some h.destination
  source : MacAddress.at? bs 6 = some h.source
  etherType : word? bs 12 = some h.etherType

theorem read?_eq_some_iff : read? bs = some h ↔ At bs h := by
  simp only [read?, Option.bind_eq_bind, Option.bind_eq_some_iff, Option.pure_def,
    Option.some.injEq]
  constructor
  · rintro ⟨destination, hd, source, hs, etherType, ht, rfl⟩
    exact ⟨hd, hs, ht⟩
  · intro ha
    exact ⟨_, ha.destination, _, ha.source, _, ha.etherType, rfl⟩

theorem At.append (ha : At bs h) (more : List UInt8) : At (bs ++ more) h :=
  ⟨MacAddress.at?_append ha.destination, MacAddress.at?_append ha.source,
    word?_append ha.etherType⟩

theorem At.size_le (ha : At bs h) : size ≤ bs.length := by
  obtain ⟨s, hs, -⟩ := word?_eq_some_iff.mp ha.etherType
  exact (span?_eq_some_iff.mp hs).1

end EthernetHeader

/-! ## IPv4 -/

namespace Ipv4Header

variable {h : Ipv4Header}

/-- A header stands at the beginning of a byte string, and the lengths that it declares fit
inside each other and inside the bytes. -/
structure At (bs : List UInt8) (h : Ipv4Header) : Prop where
  first : ∃ b, byte? bs 0 = some b ∧ b >>> 4 = h.version ∧ 4 * (b.toNat % 16) = h.headerLength
  service : ∃ b, byte? bs 1 = some b ∧ b >>> 2 = h.dscp ∧ b &&& 3 = h.ecn
  totalLength : word? bs 2 = some h.totalLength
  identification : word? bs 4 = some h.identification
  fragment : ∃ w, word? bs 6 = some w ∧ (w &&& 0x4000 != 0) = h.dontFragment ∧
    (w &&& 0x2000 != 0) = h.moreFragments ∧ 8 * (w.toNat % 8192) = h.fragmentOffset
  timeToLive : byte? bs 8 = some h.timeToLive
  protocol : byte? bs 9 = some h.protocol
  checksum : word? bs 10 = some h.checksum
  source : Ipv4Address.at? bs 12 = some h.source
  destination : Ipv4Address.at? bs 16 = some h.destination
  header_le_total : h.headerLength ≤ h.totalLength.toNat
  total_le : h.totalLength.toNat ≤ bs.length

theorem read?_eq_some_iff : read? bs = some h ↔ At bs h := by
  simp only [read?, Option.bind_eq_bind, Option.bind_eq_some_iff, Option.pure_def,
    Option.some.injEq, Option.guard_eq_some']
  constructor
  -- The hypotheses come in the order in which the reader asks for the fields.
  · rintro ⟨first, hf, service, hs, total, ht, identification, hi, fragment, hg, ttl, hl,
      protocol, hp, checksum, hc, source, hsrc, destination, hdst, -, ⟨hle, hfit⟩, rfl⟩
    exact ⟨⟨first, hf, rfl, rfl⟩, ⟨service, hs, rfl, rfl⟩, ht, hi, ⟨fragment, hg, rfl, rfl, rfl⟩,
      hl, hp, hc, hsrc, hdst, hle, hfit⟩
  · intro ha
    obtain ⟨first, hf, hv, hh⟩ := ha.first
    obtain ⟨service, hs, hdscp, hecn⟩ := ha.service
    obtain ⟨fragment, hg, hdf, hmf, ho⟩ := ha.fragment
    refine ⟨first, hf, service, hs, _, ha.totalLength, _, ha.identification, fragment, hg,
      _, ha.timeToLive, _, ha.protocol, _, ha.checksum, _, ha.source, _, ha.destination, (), ?_, ?_⟩
    · rw [hh]
      exact ⟨ha.header_le_total, ha.total_le⟩
    · rw [hv, hh, hdscp, hecn, hdf, hmf, ho]

theorem At.append (ha : At bs h) (more : List UInt8) : At (bs ++ more) h where
  first := ha.first.imp fun _ hb => ⟨byte?_append hb.1, hb.2⟩
  service := ha.service.imp fun _ hb => ⟨byte?_append hb.1, hb.2⟩
  totalLength := word?_append ha.totalLength
  identification := word?_append ha.identification
  fragment := ha.fragment.imp fun _ hw => ⟨word?_append hw.1, hw.2⟩
  timeToLive := byte?_append ha.timeToLive
  protocol := byte?_append ha.protocol
  checksum := word?_append ha.checksum
  source := Ipv4Address.at?_append ha.source
  destination := Ipv4Address.at?_append ha.destination
  header_le_total := ha.header_le_total
  total_le := by
    have := ha.total_le
    rw [List.length_append]
    omega

/-- What a packet carries ends where its header says, whatever follows. -/
theorem payload_append (ha : At bs h) (more : List UInt8) :
    h.payload (bs ++ more) = h.payload bs := by
  rw [payload, payload, List.take_append_of_le_length ha.total_le]

theorem length_payload (ha : At bs h) :
    (h.payload bs).length = h.totalLength.toNat - h.headerLength := by
  have := ha.total_le
  rw [payload, List.length_drop, List.length_take]
  omega

end Ipv4Header

/-! ## UDP and TCP -/

/-- A header stands at the beginning of a byte string, with a number of payload bytes behind
it that it declares. -/
structure UdpHeader.At (bs : List UInt8) (h : UdpHeader) (n : Nat) : Prop where
  sourcePort : word? bs 0 = some h.sourcePort
  destinationPort : word? bs 2 = some h.destinationPort
  length : word? bs 4 = some h.length
  checksum : word? bs 6 = some h.checksum
  size_le : size ≤ h.length.toNat
  length_le : h.length.toNat ≤ bs.length
  payload : n = h.length.toNat - size

/-- A header stands at the beginning of a byte string, and all that is behind it and its
options is payload. -/
structure TcpHeader.At (bs : List UInt8) (h : TcpHeader) (n : Nat) : Prop where
  sourcePort : word? bs 0 = some h.sourcePort
  destinationPort : word? bs 2 = some h.destinationPort
  sequence : long? bs 4 = some h.sequence
  acknowledgement : long? bs 8 = some h.acknowledgement
  window : word? bs 14 = some h.window
  checksum : word? bs 16 = some h.checksum
  urgent : ∃ w, word? bs 18 = some w
  offset : ∃ b, byte? bs 12 = some b ∧ leastSize ≤ 4 * (b.toNat / 16) ∧
    4 * (b.toNat / 16) ≤ bs.length ∧ n = bs.length - 4 * (b.toNat / 16)

theorem UdpHeader.read?_eq_some_iff {h : UdpHeader} : read? bs = some (h, n) ↔ At bs h n := by
  simp only [read?, Option.bind_eq_bind, Option.bind_eq_some_iff, Option.pure_def,
    Option.some.injEq, Option.guard_eq_some', Prod.mk.injEq]
  constructor
  · rintro ⟨source, hs, destination, hd, length, hl, checksum, hc, -, ⟨hle, hfit⟩, rfl, rfl⟩
    exact ⟨hs, hd, hl, hc, hle, hfit, rfl⟩
  · intro ha
    exact ⟨_, ha.sourcePort, _, ha.destinationPort, _, ha.length, _, ha.checksum, (),
      ⟨ha.size_le, ha.length_le⟩, rfl, ha.payload.symm⟩

theorem TcpHeader.read?_eq_some_iff {h : TcpHeader} : read? bs = some (h, n) ↔ At bs h n := by
  simp only [read?, Option.bind_eq_bind, Option.bind_eq_some_iff, Option.pure_def,
    Option.some.injEq, Option.guard_eq_some', Prod.mk.injEq]
  constructor
  · rintro ⟨source, hs, destination, hd, sequence, hq, acknowledgement, hk, offset, ho,
      window, hw, checksum, hc, urgent, hu, -, ⟨hle, hfit⟩, rfl, rfl⟩
    exact ⟨hs, hd, hq, hk, hw, hc, ⟨urgent, hu⟩, offset, ho, hle, hfit, rfl⟩
  · intro ha
    obtain ⟨urgent, hu⟩ := ha.urgent
    obtain ⟨offset, ho, hle, hfit, hn⟩ := ha.offset
    exact ⟨_, ha.sourcePort, _, ha.destinationPort, _, ha.sequence, _, ha.acknowledgement,
      offset, ho, _, ha.window, _, ha.checksum, urgent, hu, (), ⟨hle, hfit⟩, rfl, hn.symm⟩

end SoftNic
