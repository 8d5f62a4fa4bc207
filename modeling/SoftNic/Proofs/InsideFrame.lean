import SoftNic.Proofs.HeaderSearch

/-! # Reading stays inside the frame

The readers of headers ask for every field and are told when it is not there.  A reader of
another kind looks at lengths first, and then takes its fields without asking: bytes that are
not there are a fault (`OutOfRange`).  Here is the same search in that form, with no more
tests than these:

* a frame has fourteen bytes;
* a packet has twenty, and its header length, its total length and its bytes ascend;
* a datagram has eight, and eight, its declared length and its bytes ascend;
* a segment has twenty, and twenty, its header length and its bytes ascend.

A payload is cut out between the declared ends, which is a fault when they are in the wrong
order.  **`Summary.takeHeaders_eq`: the tests are enough and none is too strict**; the search
never takes a byte that is not there, and it comes to the summary of the frame.
-/
namespace SoftNic

namespace Dissection

/-- Bytes were taken that are not there. -/
structure OutOfRange where
  start : Nat
  stop : Nat
  deriving DecidableEq, Repr

variable {bs s : List UInt8} {start count : Nat}

/-- Take the bytes between two positions. -/
def takeSlice (bs : List UInt8) (start stop : Nat) : Except OutOfRange (List UInt8) :=
  if start ≤ stop ∧ stop ≤ bs.length then .ok ((bs.take stop).drop start)
  else .error ⟨start, stop⟩

/-- Take the byte at a position. -/
def takeByte (bs : List UInt8) (start : Nat) : Except OutOfRange UInt8 :=
  (takeSlice bs start (start + 1)).map fun s => UInt8.ofNat (bigEndian s)

/-- Take the two-byte field at a position. -/
def takeWord (bs : List UInt8) (start : Nat) : Except OutOfRange UInt16 :=
  (takeSlice bs start (start + 2)).map fun s => UInt16.ofNat (bigEndian s)

/-- Take the four-byte field at a position. -/
def takeLong (bs : List UInt8) (start : Nat) : Except OutOfRange UInt32 :=
  (takeSlice bs start (start + 4)).map fun s => UInt32.ofNat (bigEndian s)

/-! ## Fields that are there -/

theorem exists_span? (h : start + count ≤ bs.length) : ∃ s, span? bs start count = some s :=
  ⟨_, span?_eq_some_iff.mpr ⟨h, rfl⟩⟩

theorem takeSlice_eq {stop : Nat} (h : start ≤ stop) (hs : stop ≤ bs.length) :
    takeSlice bs start stop = .ok ((bs.take stop).drop start) :=
  if_pos ⟨h, hs⟩

theorem takeSlice_of_span? (h : span? bs start count = some s) :
    takeSlice bs start (start + count) = .ok s := by
  obtain ⟨hle, rfl⟩ := span?_eq_some_iff.mp h
  rw [takeSlice_eq (Nat.le_add_right start count) hle, List.drop_take, Nat.add_sub_cancel_left]

/-- What is made of a span that is there is taken. -/
theorem exists_field {α : Type} (g : List UInt8 → α) (h : start + count ≤ bs.length) :
    ∃ a, (span? bs start count).map g = some a ∧
      (takeSlice bs start (start + count)).map g = .ok a := by
  obtain ⟨s, hs⟩ := exists_span? h
  refine ⟨g s, Option.map_eq_some_iff.mpr ⟨s, hs, rfl⟩, ?_⟩
  rw [takeSlice_of_span? hs]
  rfl

theorem exists_byte? (h : start + 1 ≤ bs.length) :
    ∃ b, byte? bs start = some b ∧ takeByte bs start = .ok b :=
  exists_field _ h

theorem exists_word? (h : start + 2 ≤ bs.length) :
    ∃ w, word? bs start = some w ∧ takeWord bs start = .ok w :=
  exists_field _ h

theorem exists_long? (h : start + 4 ≤ bs.length) :
    ∃ w, long? bs start = some w ∧ takeLong bs start = .ok w :=
  exists_field _ h

end Dissection

open Dissection

variable {bs : List UInt8} {start : Nat}

/-- Take the hardware address at a position. -/
def MacAddress.take (bs : List UInt8) (start : Nat) : Except OutOfRange MacAddress :=
  if h : start + 6 ≤ bs.length then
    .ok ⟨(bs.drop start).take 6, by rw [List.length_take, List.length_drop]; omega⟩
  else .error ⟨start, start + 6⟩

theorem MacAddress.exists_at? (h : start + 6 ≤ bs.length) :
    ∃ a, MacAddress.at? bs start = some a ∧ MacAddress.take bs start = .ok a := by
  refine ⟨_, MacAddress.at?_eq_some_iff.mpr ?_, dif_pos h⟩
  exact span?_eq_some_iff.mpr ⟨h, rfl⟩

/-- Take the IPv4 address at a position. -/
def Ipv4Address.take (bs : List UInt8) (start : Nat) : Except OutOfRange Ipv4Address :=
  (takeSlice bs start (start + 4)).map Ipv4Address.mk

theorem Ipv4Address.exists_at? (h : start + 4 ≤ bs.length) :
    ∃ a, Ipv4Address.at? bs start = some a ∧ Ipv4Address.take bs start = .ok a :=
  exists_field _ h

/-! ## Headers -/

namespace EthernetHeader

/-- Take the header of a frame, if the frame is long enough. -/
def takeHeader (bs : List UInt8) : Except OutOfRange (Option EthernetHeader) :=
  if bs.length < size then .ok none
  else do
    let destination ← MacAddress.take bs 0
    let source ← MacAddress.take bs 6
    let etherType ← takeWord bs 12
    return some { destination, source, etherType }

theorem read?_of_short (hlen : bs.length < size) : read? bs = none := by
  rw [Option.eq_none_iff_forall_ne_some]
  intro h hr
  have := (read?_eq_some_iff.mp hr).size_le
  omega

theorem takeHeader_eq (bs : List UInt8) : takeHeader bs = .ok (read? bs) := by
  by_cases hlen : bs.length < size
  · rw [takeHeader, if_pos hlen, read?_of_short hlen]
  · have hle : 14 ≤ bs.length := Nat.le_of_not_lt hlen
    obtain ⟨d, hd, hd'⟩ := MacAddress.exists_at? (show 0 + 6 ≤ bs.length by omega)
    obtain ⟨s, hs, hs'⟩ := MacAddress.exists_at? (show 6 + 6 ≤ bs.length by omega)
    obtain ⟨t, ht, ht'⟩ := exists_word? (show 12 + 2 ≤ bs.length by omega)
    rw [takeHeader, if_neg hlen, hd', hs', ht', read?, hd, hs, ht]
    rfl

end EthernetHeader

namespace Ipv4Header

/-- The least number of bytes of the header. -/
def leastSize : Nat := 20

/-- Take the header of a packet, if the packet is long enough and the declared lengths fit. -/
def takeHeader (bs : List UInt8) : Except OutOfRange (Option Ipv4Header) :=
  if bs.length < leastSize then .ok none
  else do
    let first ← takeByte bs 0
    let totalLength ← takeWord bs 2
    let headerLength := 4 * (first.toNat % 16)
    if headerLength ≤ totalLength.toNat ∧ totalLength.toNat ≤ bs.length then
      let service ← takeByte bs 1
      let identification ← takeWord bs 4
      let fragment ← takeWord bs 6
      let timeToLive ← takeByte bs 8
      let protocol ← takeByte bs 9
      let checksum ← takeWord bs 10
      let source ← Ipv4Address.take bs 12
      let destination ← Ipv4Address.take bs 16
      return some {
        version := first >>> 4
        headerLength
        dscp := service >>> 2
        ecn := service &&& 3
        totalLength
        identification
        dontFragment := fragment &&& 0x4000 != 0
        moreFragments := fragment &&& 0x2000 != 0
        fragmentOffset := 8 * (fragment.toNat % 8192)
        timeToLive
        protocol
        checksum
        source
        destination }
    else return none

theorem At.leastSize_le {h : Ipv4Header} (ha : At bs h) : leastSize ≤ bs.length :=
  (span?_eq_some_iff.mp (Ipv4Address.at?_eq_some_iff.mp ha.destination)).1

theorem read?_of_short (hlen : bs.length < leastSize) : read? bs = none := by
  rw [Option.eq_none_iff_forall_ne_some]
  intro h hr
  have := (read?_eq_some_iff.mp hr).leastSize_le
  omega

theorem takeHeader_eq (bs : List UInt8) : takeHeader bs = .ok (read? bs) := by
  by_cases hlen : bs.length < leastSize
  · rw [takeHeader, if_pos hlen, read?_of_short hlen]
  -- Long enough: both readers find the same fields, and one test is left to both.
  · have hle : 20 ≤ bs.length := Nat.le_of_not_lt hlen
    obtain ⟨first, hf, hf'⟩ := exists_byte? (show 0 + 1 ≤ bs.length by omega)
    obtain ⟨service, hs, hs'⟩ := exists_byte? (show 1 + 1 ≤ bs.length by omega)
    obtain ⟨total, ht, ht'⟩ := exists_word? (show 2 + 2 ≤ bs.length by omega)
    obtain ⟨identification, hi, hi'⟩ := exists_word? (show 4 + 2 ≤ bs.length by omega)
    obtain ⟨fragment, hg, hg'⟩ := exists_word? (show 6 + 2 ≤ bs.length by omega)
    obtain ⟨ttl, hl, hl'⟩ := exists_byte? (show 8 + 1 ≤ bs.length by omega)
    obtain ⟨protocol, hp, hp'⟩ := exists_byte? (show 9 + 1 ≤ bs.length by omega)
    obtain ⟨checksum, hc, hc'⟩ := exists_word? (show 10 + 2 ≤ bs.length by omega)
    obtain ⟨source, hsrc, hsrc'⟩ := Ipv4Address.exists_at? (show 12 + 4 ≤ bs.length by omega)
    obtain ⟨destination, hdst, hdst'⟩ := Ipv4Address.exists_at? (show 16 + 4 ≤ bs.length by omega)
    rw [takeHeader, if_neg hlen, hf', hs', ht', hi', hg', hl', hp', hc', hsrc', hdst', read?,
      hf, hs, ht, hi, hg, hl, hp, hc, hsrc, hdst]
    by_cases hfit : 4 * (first.toNat % 16) ≤ total.toNat ∧ total.toNat ≤ bs.length
    · simp [guard, hfit, bind, Except.bind, pure, Except.pure]
    · simp [guard, hfit, bind, Except.bind, pure, Except.pure]

end Ipv4Header

namespace UdpHeader

/-- Take the header of a datagram and count its payload, if the datagram is long enough and
its declared length fits. -/
def takeHeader (bs : List UInt8) : Except OutOfRange (Option (UdpHeader × Nat)) :=
  if bs.length < size then .ok none
  else do
    let length ← takeWord bs 4
    if size ≤ length.toNat ∧ length.toNat ≤ bs.length then
      let sourcePort ← takeWord bs 0
      let destinationPort ← takeWord bs 2
      let checksum ← takeWord bs 6
      let payload ← takeSlice bs size length.toNat
      return some ({ sourcePort, destinationPort, length, checksum }, payload.length)
    else return none

theorem read?_of_short (hlen : bs.length < size) : read? bs = none := by
  rw [Option.eq_none_iff_forall_ne_some]
  rintro ⟨h, n⟩ hr
  have ha := read?_eq_some_iff.mp hr
  have := Nat.le_trans ha.size_le ha.length_le
  omega

theorem takeHeader_eq (bs : List UInt8) : takeHeader bs = .ok (read? bs) := by
  by_cases hlen : bs.length < size
  · rw [takeHeader, if_pos hlen, read?_of_short hlen]
  · have hle : 8 ≤ bs.length := Nat.le_of_not_lt hlen
    obtain ⟨source, hs, hs'⟩ := exists_word? (show 0 + 2 ≤ bs.length by omega)
    obtain ⟨destination, hd, hd'⟩ := exists_word? (show 2 + 2 ≤ bs.length by omega)
    obtain ⟨length, hl, hl'⟩ := exists_word? (show 4 + 2 ≤ bs.length by omega)
    obtain ⟨checksum, hc, hc'⟩ := exists_word? (show 6 + 2 ≤ bs.length by omega)
    rw [takeHeader, if_neg hlen, hs', hd', hl', hc', read?, hs, hd, hl, hc]
    by_cases hfit : size ≤ length.toNat ∧ length.toNat ≤ bs.length
    · simp [guard, hfit, takeSlice_eq hfit.1 hfit.2, bind, Except.bind, pure, Except.pure]
    · simp [guard, hfit, bind, Except.bind, pure, Except.pure]

end UdpHeader

namespace TcpHeader

/-- Take the header of a segment and count its payload, if the segment is long enough and its
declared header length fits. -/
def takeHeader (bs : List UInt8) : Except OutOfRange (Option (TcpHeader × Nat)) :=
  if bs.length < leastSize then .ok none
  else do
    let offset ← takeByte bs 12
    let headerLength := 4 * (offset.toNat / 16)
    if leastSize ≤ headerLength ∧ headerLength ≤ bs.length then
      let sourcePort ← takeWord bs 0
      let destinationPort ← takeWord bs 2
      let sequence ← takeLong bs 4
      let acknowledgement ← takeLong bs 8
      let window ← takeWord bs 14
      let checksum ← takeWord bs 16
      let payload ← takeSlice bs headerLength bs.length
      return some ({ sourcePort, destinationPort, window, checksum, sequence, acknowledgement },
        payload.length)
    else return none

theorem At.leastSize_le {n : Nat} {h : TcpHeader} (ha : At bs h n) : leastSize ≤ bs.length := by
  obtain ⟨offset, -, hle, hfit, -⟩ := ha.offset
  omega

theorem read?_of_short (hlen : bs.length < leastSize) : read? bs = none := by
  rw [Option.eq_none_iff_forall_ne_some]
  rintro ⟨h, n⟩ hr
  have := (read?_eq_some_iff.mp hr).leastSize_le
  omega

theorem takeHeader_eq (bs : List UInt8) : takeHeader bs = .ok (read? bs) := by
  by_cases hlen : bs.length < leastSize
  · rw [takeHeader, if_pos hlen, read?_of_short hlen]
  · have hle : 20 ≤ bs.length := Nat.le_of_not_lt hlen
    obtain ⟨source, hs, hs'⟩ := exists_word? (show 0 + 2 ≤ bs.length by omega)
    obtain ⟨destination, hd, hd'⟩ := exists_word? (show 2 + 2 ≤ bs.length by omega)
    obtain ⟨sequence, hq, hq'⟩ := exists_long? (show 4 + 4 ≤ bs.length by omega)
    obtain ⟨acknowledgement, hk, hk'⟩ := exists_long? (show 8 + 4 ≤ bs.length by omega)
    obtain ⟨offset, ho, ho'⟩ := exists_byte? (show 12 + 1 ≤ bs.length by omega)
    obtain ⟨window, hw, hw'⟩ := exists_word? (show 14 + 2 ≤ bs.length by omega)
    obtain ⟨checksum, hc, hc'⟩ := exists_word? (show 16 + 2 ≤ bs.length by omega)
    obtain ⟨urgent, hu, -⟩ := exists_word? (show 18 + 2 ≤ bs.length by omega)
    rw [takeHeader, if_neg hlen, hs', hd', hq', hk', ho', hw', hc', read?, hs, hd, hq, hk, ho,
      hw, hc, hu]
    by_cases hfit : leastSize ≤ 4 * (offset.toNat / 16) ∧ 4 * (offset.toNat / 16) ≤ bs.length
    · simp [guard, hfit, takeSlice_eq hfit.2 (Nat.le_refl _), bind, Except.bind, pure, Except.pure]
    · simp [guard, hfit, bind, Except.bind, pure, Except.pure]

end TcpHeader

/-- Take the transport header of a protocol, and count the payload. -/
def TransportHeader.takeHeader (p : UInt8) (bs : List UInt8) :
    Except OutOfRange (Option (TransportHeader × Nat)) :=
  if p = Ipv4Header.udp then do
    let r ← UdpHeader.takeHeader bs
    return r.map fun r => (udp r.1, r.2)
  else if p = Ipv4Header.tcp then do
    let r ← TcpHeader.takeHeader bs
    return r.map fun r => (tcp r.1, r.2)
  else return none

theorem TransportHeader.takeHeader_eq (p : UInt8) (bs : List UInt8) :
    takeHeader p bs = .ok (read? p bs) := by
  unfold takeHeader read?
  rw [UdpHeader.takeHeader_eq, TcpHeader.takeHeader_eq]
  split_ifs <;> rfl

/-! ## Frames -/

namespace Summary

instance (p : UInt8) : Decidable (HasTransport p) :=
  inferInstanceAs (Decidable (_ ∨ _))

/-- The summary of a frame, with tests for lengths and no others. -/
def takeHeaders (bs : List UInt8) : Except OutOfRange Summary := do
  let s : Summary := { length := bs.length }
  match ← EthernetHeader.takeHeader bs with
  | none => return s
  | some e =>
    let s := { s with ethernet := some e }
    if e.etherType = EthernetHeader.ipv4Type then
      let packet ← takeSlice bs EthernetHeader.size bs.length
      match ← Ipv4Header.takeHeader packet with
      | none => return s
      | some i =>
        let s := { s with ipv4 := some i }
        if HasTransport i.protocol then
          let payload ← takeSlice packet i.headerLength i.totalLength.toNat
          match ← TransportHeader.takeHeader i.protocol payload with
          | none => return s
          | some (t, n) =>
            return { s with transport := some t, payloadLength := some n, ending := .complete }
        else return { s with ending := .otherTransport }
    else return { s with ending := .notIpv4 }

/-- The bytes behind the Ethernet header are there. -/
theorem takeSlice_packet {e : EthernetHeader} (he : e.At bs) :
    takeSlice bs EthernetHeader.size bs.length = .ok (bs.drop EthernetHeader.size) := by
  rw [takeSlice_eq he.size_le (Nat.le_refl _), List.take_length]

/-- The bytes between the IPv4 header and the declared end are there. -/
theorem takeSlice_payload {i : Ipv4Header} (hi : i.At bs) :
    takeSlice bs i.headerLength i.totalLength.toNat = .ok (i.payload bs) :=
  takeSlice_eq hi.header_le_total hi.total_le

/-- **No byte is taken that is not there**, and what is taken is the summary. -/
theorem takeHeaders_eq (bs : List UInt8) : takeHeaders bs = .ok (ofBytes bs) := by
  unfold takeHeaders
  rw [EthernetHeader.takeHeader_eq]
  have search := search_ofBytes bs
  generalize ofBytes bs = s at search
  cases search with
  | short he =>
    rw [he]
    rfl
  | notIpv4 he ht =>
    rw [EthernetHeader.read?_eq_some_iff.mpr he]
    simp [ht, bind, Except.bind, pure, Except.pure]
  | shortPacket he ht hi =>
    rw [EthernetHeader.read?_eq_some_iff.mpr he, takeSlice_packet he]
    simp [ht, Ipv4Header.takeHeader_eq, hi, bind, Except.bind, pure, Except.pure]
  | otherTransport he ht hi hp =>
    rw [EthernetHeader.read?_eq_some_iff.mpr he, takeSlice_packet he]
    simp [ht, Ipv4Header.takeHeader_eq, Ipv4Header.read?_eq_some_iff.mpr hi, hp, bind, Except.bind,
      pure, Except.pure]
  | shortTransport he ht hi hp hr =>
    rw [EthernetHeader.read?_eq_some_iff.mpr he, takeSlice_packet he]
    simp [ht, Ipv4Header.takeHeader_eq, Ipv4Header.read?_eq_some_iff.mpr hi, hp,
      takeSlice_payload hi, TransportHeader.takeHeader_eq, hr, bind, Except.bind, pure, Except.pure]
  | @complete e i t n he ht hi hp hr =>
    have hp' : HasTransport i.protocol := hp ▸ hasTransport_protocol t
    have hr' := TransportHeader.read?_eq_some_iff.mpr ⟨hp, hr⟩
    rw [EthernetHeader.read?_eq_some_iff.mpr he, takeSlice_packet he]
    simp [ht, Ipv4Header.takeHeader_eq, Ipv4Header.read?_eq_some_iff.mpr hi, hp',
      takeSlice_payload hi, TransportHeader.takeHeader_eq, hr', bind, Except.bind, pure,
      Except.pure]

end Summary
end SoftNic
