import SoftNic.Proofs.OtherVersion
import SoftNic.Proofs.SummaryForm

/-! # Layers of a frame

A complete summary shows three headers and counts a payload.  Do they stand apart in the
frame?  They do if the frame can be cut into consecutive pieces (`Layers`), one for each
header, one for the payload and one for the rest, such that every header is found in its own
piece whatever the other pieces hold (`Layers.Hold`).

An IPv4 header has at least twenty bytes and is of version 4 (`Ipv4Header.Genuine`).  Reading
a packet asks for twenty bytes, but not for a header length of twenty, and it does not ask
for the version.  So there are complete summaries whose layers overlap: with a shorter
declared length the transport header is looked for inside of the IPv4 header, and the ports
are bytes of that (`PortsInHeader`).  **`Summary.layers_apart_iff` says for which frames the
layers stand apart**: the fifteenth byte of a frame, where the packet begins, decides it.
-/
namespace SoftNic

open Dissection

variable {bs more s : List UInt8} {start count k n : Nat} {t : TransportHeader}

namespace Dissection

/-! ## Fields at the front -/

theorem span?_take (hk : start + count ≤ k) :
    span? (bs.take k) start count = span? bs start count := by
  have same : ((bs.take k).drop start).take count = (bs.drop start).take count := by
    rw [List.drop_take, List.take_take, Nat.min_eq_left (by omega)]
  have room : start + count ≤ (bs.take k).length ↔ start + count ≤ bs.length := by
    rw [List.length_take]
    omega
  simp only [span?, same, room]

/-- A span depends on no byte behind it. -/
theorem span?_front (h : span? bs start count = some s) (hk : start + count ≤ k) :
    span? (bs.take k ++ more) start count = some s := by
  rw [← span?_take hk] at h
  exact span?_append h more

theorem field_front {α : Type} {g : List UInt8 → α} {a : α}
    (h : (span? bs start count).map g = some a) (hk : start + count ≤ k) :
    (span? (bs.take k ++ more) start count).map g = some a := by
  rw [← span?_take hk] at h
  exact field_append h

end Dissection

/-! ## Headers at the front -/

theorem EthernetHeader.At.front {e : EthernetHeader} (he : e.At bs) (more : List UInt8) :
    e.At (bs.take size ++ more) where
  destination := MacAddress.at?_eq_some_iff.mpr
    (span?_front (MacAddress.at?_eq_some_iff.mp he.destination) (by decide))
  source := MacAddress.at?_eq_some_iff.mpr
    (span?_front (MacAddress.at?_eq_some_iff.mp he.source) (by decide))
  etherType := field_front he.etherType (by decide)

namespace Ipv4Header

variable {i : Ipv4Header}

/-- A header of version 4 that declares no less than the least number of bytes. -/
def Genuine (i : Ipv4Header) : Prop :=
  i.version = 4 ∧ leastSize ≤ i.headerLength

/-- Options are not looked at, and what is carried is only counted. -/
theorem At.front (hi : i.At bs) (hk : leastSize ≤ k)
    (hfit : i.totalLength.toNat ≤ (bs.take k ++ more).length) : i.At (bs.take k ++ more) := by
  have room : 20 ≤ k := hk
  exact {
    first := hi.first.imp fun _ hb => ⟨field_front hb.1 (by omega), hb.2⟩
    service := hi.service.imp fun _ hb => ⟨field_front hb.1 (by omega), hb.2⟩
    totalLength := field_front hi.totalLength (by omega)
    identification := field_front hi.identification (by omega)
    fragment := hi.fragment.imp fun _ hw => ⟨field_front hw.1 (by omega), hw.2⟩
    timeToLive := field_front hi.timeToLive (by omega)
    protocol := field_front hi.protocol (by omega)
    checksum := field_front hi.checksum (by omega)
    source := field_front hi.source (by omega)
    destination := field_front hi.destination (by omega)
    header_le_total := hi.header_le_total
    total_le := hfit }

/-- The last byte of the destination address is the twentieth of the packet. -/
theorem At.getElem?_nineteen (hi : i.At bs) : bs[19]? = i.destination.octets[3]? := by
  obtain ⟨-, hspan⟩ := span?_eq_some_iff.mp (Ipv4Address.at?_eq_some_iff.mp hi.destination)
  rw [hspan, List.getElem?_take_of_lt (by decide), List.getElem?_drop]

/-- **A header that does not depend on what follows has its twenty bytes.** -/
theorem leastSize_le_of_at {front : List UInt8}
    (h : ∀ more, i.totalLength.toNat ≤ (front ++ more).length → i.At (front ++ more)) :
    leastSize ≤ front.length := by
  by_contra hlt
  have hshort : front.length ≤ 19 := by
    rw [leastSize] at hlt
    omega
  -- The destination address cannot end in every byte that may follow.
  have last (b : UInt8) : i.destination.octets[3]? = some b := by
    have hat := h (List.replicate (i.totalLength.toNat + 20) b) (by simp; omega)
    rw [← hat.getElem?_nineteen, List.getElem?_append_right hshort, List.getElem?_replicate,
      if_pos (by omega)]
  have same := (last 0).symm.trans (last 1)
  exact absurd same (by decide)

theorem genuine_iff (hi : i.At bs) :
    i.Genuine ↔ ∃ b, byte? bs 0 = some b ∧ 0x45 ≤ b ∧ b ≤ 0x4f := by
  obtain ⟨b, hb, hversion, hlength⟩ := hi.first
  have halves : b >>> 4 = 4 ↔ b.toNat / 16 = 4 := by
    simp [← UInt8.toNat_inj, Nat.shiftRight_eq_div_pow]
  have range : i.Genuine ↔ 0x45 ≤ b ∧ b ≤ 0x4f := by
    rw [Genuine, leastSize, ← hversion, ← hlength, halves, UInt8.le_iff_toNat_le,
      UInt8.le_iff_toNat_le]
    change _ ↔ 69 ≤ b.toNat ∧ b.toNat ≤ 79
    omega
  rw [range]
  constructor
  · exact fun h => ⟨b, hb, h⟩
  · rintro ⟨b', hb', h⟩
    obtain rfl := Option.some.inj (hb.symm.trans hb')
    exact h

end Ipv4Header

namespace TransportHeader

/-- The port that a datagram or a segment comes from. -/
def sourcePort : TransportHeader → UInt16
  | udp h => h.sourcePort
  | tcp h => h.sourcePort

/-- The port that a datagram or a segment goes to. -/
def destinationPort : TransportHeader → UInt16
  | udp h => h.destinationPort
  | tcp h => h.destinationPort

theorem At.ports (ht : t.At bs n) :
    word? bs 0 = some t.sourcePort ∧ word? bs 2 = some t.destinationPort := by
  cases ht with
  | udp ha => exact ⟨ha.sourcePort, ha.destinationPort⟩
  | tcp ha => exact ⟨ha.sourcePort, ha.destinationPort⟩

/-- A header ends where its payload begins, and the payload is only counted. -/
theorem At.front (ht : t.At bs n) :
    ∃ size, size + n ≤ bs.length ∧ t.HasSize (bs.take size) 0 size ∧
      ∀ more, more.length = n → t.At (bs.take size ++ more) n := by
  cases ht with
  | @udp h n ha =>
    have hsize : 8 ≤ h.length.toNat := ha.size_le
    have hn : n = h.length.toNat - 8 := ha.payload
    have hle := ha.length_le
    refine ⟨8, by omega, .udp, fun more hmore => .udp ?_⟩
    exact {
      sourcePort := field_front ha.sourcePort (by omega)
      destinationPort := field_front ha.destinationPort (by omega)
      length := field_front ha.length (by omega)
      checksum := field_front ha.checksum (by omega)
      size_le := ha.size_le
      length_le := by
        rw [List.length_append, List.length_take]
        omega
      payload := ha.payload }
  | @tcp h n ha =>
    obtain ⟨b, hb, hleast, hfit, hn⟩ := ha.offset
    have room : 20 ≤ 4 * (b.toNat / 16) := hleast
    refine ⟨4 * (b.toNat / 16), by omega, .tcp ?_, fun more hmore => .tcp ?_⟩
    · rw [byte?, span?_take (by omega)]
      exact hb
    · exact {
        sourcePort := field_front ha.sourcePort (by omega)
        destinationPort := field_front ha.destinationPort (by omega)
        sequence := field_front ha.sequence (by omega)
        acknowledgement := field_front ha.acknowledgement (by omega)
        window := field_front ha.window (by omega)
        checksum := field_front ha.checksum (by omega)
        urgent := ha.urgent.imp fun _ hw => field_front hw (by omega)
        offset := by
          have hlength : (bs.take (4 * (b.toNat / 16)) ++ more).length =
              4 * (b.toNat / 16) + n := by
            rw [List.length_append, List.length_take, hmore]
            omega
          rw [hlength]
          exact ⟨b, field_front hb (by omega), hleast, by omega, by omega⟩ }

end TransportHeader

/-! ## Frames in pieces -/

/-- A frame in consecutive pieces. -/
structure Layers where
  ethernet : List UInt8
  ipv4 : List UInt8
  transport : List UInt8
  payload : List UInt8
  /-- What is behind the payload. -/
  trailer : List UInt8

namespace Layers

/-- The frame that is in pieces. -/
def frame (l : Layers) : List UInt8 :=
  l.ethernet ++ (l.ipv4 ++ (l.transport ++ (l.payload ++ l.trailer)))

/-- Cut a frame into pieces of these lengths. -/
def cut (bs : List UInt8) (ethernet ipv4 transport payload : Nat) : Layers where
  ethernet := bs.take ethernet
  ipv4 := (bs.drop ethernet).take ipv4
  transport := (bs.drop (ethernet + ipv4)).take transport
  payload := (bs.drop (ethernet + ipv4 + transport)).take payload
  trailer := bs.drop (ethernet + ipv4 + transport + payload)

/-- Nothing is lost by cutting. -/
@[simp] theorem frame_cut (bs : List UInt8) (ethernet ipv4 transport payload : Nat) :
    (cut bs ethernet ipv4 transport payload).frame = bs := by
  simp only [frame, cut, ← List.drop_drop, List.take_append_drop]

/-- A frame that is long enough gives every piece its length. -/
theorem length_cut {ethernet ipv4 transport payload : Nat}
    (h : ethernet + ipv4 + transport + payload ≤ bs.length) :
    (cut bs ethernet ipv4 transport payload).ethernet.length = ethernet ∧
      (cut bs ethernet ipv4 transport payload).ipv4.length = ipv4 ∧
      (cut bs ethernet ipv4 transport payload).transport.length = transport ∧
      (cut bs ethernet ipv4 transport payload).payload.length = payload := by
  simp only [cut, List.length_take, List.length_drop]
  omega

/-- Each header is found in its own piece, which is as long as the header, whatever stands
behind it; and the payload has its own piece. -/
structure Hold (l : Layers) (e : EthernetHeader) (i : Ipv4Header) (t : TransportHeader)
    (n : Nat) : Prop where
  length_ethernet : l.ethernet.length = EthernetHeader.size
  ethernet : ∀ more, e.At (l.ethernet ++ more)
  length_ipv4 : l.ipv4.length = i.headerLength
  ipv4 : ∀ more, i.totalLength.toNat ≤ (l.ipv4 ++ more).length → i.At (l.ipv4 ++ more)
  length_transport : t.HasSize l.transport 0 l.transport.length
  transport : ∀ more, more.length = n → t.At (l.transport ++ more) n
  length_payload : l.payload.length = n

end Layers

namespace Summary

variable {e : EthernetHeader} {i : Ipv4Header}

/-- The headers of a summary and its payload stand in consecutive pieces of the frame. -/
def Apart (bs : List UInt8) (s : Summary) : Prop :=
  ∃ (l : Layers) (e : EthernetHeader) (i : Ipv4Header) (t : TransportHeader) (n : Nat),
    l.frame = bs ∧ s.ethernet = some e ∧ s.ipv4 = some i ∧ s.transport = some t ∧
      s.payloadLength = some n ∧ l.Hold e i t n

/-- The ports that are shown are fields of the twenty bytes of the IPv4 header. -/
def PortsInHeader (bs : List UInt8) (i : Ipv4Header) (t : TransportHeader) : Prop :=
  word? ((bs.drop EthernetHeader.size).take Ipv4Header.leastSize) i.headerLength =
      some t.sourcePort ∧
    word? ((bs.drop EthernetHeader.size).take Ipv4Header.leastSize) (i.headerLength + 2) =
      some t.destinationPort

/-- What is carried stands in the frame behind the declared header length. -/
theorem take_payload (hk : k ≤ (i.payload (bs.drop EthernetHeader.size)).length) :
    (i.payload (bs.drop EthernetHeader.size)).take k =
      (bs.drop (EthernetHeader.size + i.headerLength)).take k := by
  rw [Ipv4Header.payload, List.drop_take, List.length_take] at hk
  rw [Ipv4Header.payload, List.drop_take, List.take_take, List.drop_drop,
    Nat.min_eq_left (by omega)]

/-- A frame whose IPv4 header has its twenty bytes can be cut between its layers. -/
theorem exists_layers (he : e.At bs) (hi : i.At (bs.drop EthernetHeader.size))
    (ht : t.At (i.payload (bs.drop EthernetHeader.size)) n)
    (hleast : Ipv4Header.leastSize ≤ i.headerLength) :
    ∃ l : Layers, l.frame = bs ∧ l.Hold e i t n := by
  obtain ⟨size, hsize, hhas, hat⟩ := ht.front
  have hpayload := Ipv4Header.length_payload hi
  have hwithin : size ≤ (i.payload (bs.drop EthernetHeader.size)).length := by omega
  rw [take_payload hwithin] at hhas hat
  have hfit : EthernetHeader.size + i.headerLength + size + n ≤ bs.length := by
    have := hi.header_le_total
    have := total_le he hi
    have : EthernetHeader.size = 14 := rfl
    omega
  obtain ⟨hethernet, hipv4, htransport, hrest⟩ := Layers.length_cut hfit
  exact ⟨.cut bs EthernetHeader.size i.headerLength size n, Layers.frame_cut .., {
    length_ethernet := hethernet
    ethernet := he.front
    length_ipv4 := hipv4
    ipv4 := fun _ htotal => hi.front hleast htotal
    length_transport := htransport.symm ▸ hhas
    transport := hat
    length_payload := hrest }⟩

/-- The header length is counted in words of four bytes, so if the transport header begins in
the IPv4 header, both ports are inside of it. -/
theorem portsInHeader_iff (hi : i.At (bs.drop EthernetHeader.size))
    (ht : t.At (i.payload (bs.drop EthernetHeader.size)) n) :
    PortsInHeader bs i t ↔ i.headerLength < Ipv4Header.leastSize := by
  constructor
  · rintro ⟨hsource, -⟩
    obtain ⟨s, hs, -⟩ := word?_eq_some_iff.mp hsource
    obtain ⟨hle, -⟩ := span?_eq_some_iff.mp hs
    rw [List.length_take] at hle
    omega
  · intro hlt
    obtain ⟨b, -, -, hwords⟩ := hi.first
    have room : i.headerLength + 4 ≤ Ipv4Header.leastSize := by
      rw [Ipv4Header.leastSize] at hlt ⊢
      omega
    have inside {start : Nat} {w : UInt16} (hstart : start ≤ 2)
        (hw : word? (i.payload (bs.drop EthernetHeader.size)) start = some w) :
        word? ((bs.drop EthernetHeader.size).take Ipv4Header.leastSize) (i.headerLength + start) =
          some w := by
      obtain ⟨s, hs, hv⟩ := word?_eq_some_iff.mp hw
      refine word?_eq_some_iff.mpr ⟨s, ?_, hv⟩
      rw [span?_take (by omega)]
      exact Ipv4Header.span?_of_payload hi hs
    obtain ⟨hsource, hdestination⟩ := ht.ports
    exact ⟨inside (Nat.zero_le 2) hsource, inside (Nat.le_refl 2) hdestination⟩

/-- What was found in front of a transport header. -/
theorem exists_of_transport (h : (ofBytes bs).transport = some t) :
    ∃ e i n, e.At bs ∧ i.At (bs.drop EthernetHeader.size) ∧
      t.At (i.payload (bs.drop EthernetHeader.size)) n ∧
      ofBytes bs =
        { length := bs.length, ethernet := some e, ipv4 := some i, transport := some t,
          payloadLength := some n, ending := .complete } := by
  have search := search_ofBytes bs
  generalize ofBytes bs = s at h search
  cases search with
  | short | notIpv4 | shortPacket | otherTransport | shortTransport => cases h
  | @complete e i t' n he htype hi hp ht =>
    obtain rfl := Option.some.inj h
    exact ⟨e, i, n, he, hi, ht, rfl⟩

/-- Layers stand apart if the IPv4 header has its twenty bytes, and only then. -/
theorem apart_iff (h : (ofBytes bs).transport = some t) (hip : (ofBytes bs).ipv4 = some i) :
    Apart bs (ofBytes bs) ↔ Ipv4Header.leastSize ≤ i.headerLength := by
  constructor
  · rintro ⟨l, e, i', t', n, -, -, hi', -, -, hold⟩
    obtain rfl := Option.some.inj (hip.symm.trans hi')
    rw [← hold.length_ipv4]
    exact Ipv4Header.leastSize_le_of_at hold.ipv4
  · intro hleast
    obtain ⟨e, i', n, he, hi, ht, hs⟩ := exists_of_transport h
    rw [hs] at hip ⊢
    obtain rfl := Option.some.inj hip
    obtain ⟨l, hl, hold⟩ := exists_layers he hi ht hleast
    exact ⟨l, e, i', t, n, hl, rfl, rfl, rfl, rfl, hold⟩

/-- **Layers that stand apart.**  When a transport header is shown, so is an IPv4 header.
It is genuine, and then the layers stand apart, for the first bytes 0x45 to 0x4f of a packet
and for no others.  The layers stand apart for a header length of twenty bytes and more;
for a smaller one the ports that are shown are bytes of the IPv4 header.  And unless the
header length is zero, a packet with any other version in the place of its own is shown just
so, and no less complete. -/
theorem layers_apart_iff (h : (ofBytes bs).transport = some t) :
    ∃ i, (ofBytes bs).ipv4 = some i ∧
      (i.Genuine ∧ Apart bs (ofBytes bs) ↔ ∃ b, byte? bs 14 = some b ∧ 0x45 ≤ b ∧ b ≤ 0x4f) ∧
      (Apart bs (ofBytes bs) ↔ 20 ≤ i.headerLength) ∧
      (PortsInHeader bs i t ↔ i.headerLength < 20) ∧
      (0 < i.headerLength → ∀ first b, byte? bs 14 = some first →
        b.toNat % 16 = first.toNat % 16 →
          ofBytes (bs.set 14 b) = (ofBytes bs).withVersion (b >>> 4)) := by
  obtain ⟨e, i, n, he, hi, ht, hs⟩ := exists_of_transport h
  have hip : (ofBytes bs).ipv4 = some i := by rw [hs]
  have apart := apart_iff h hip
  refine ⟨i, hip, ?_, apart, portsInHeader_iff hi ht, ?_⟩
  · rw [← byte?_packet, ← Ipv4Header.genuine_iff hi, apart]
    exact and_iff_left_of_imp And.right
  · intro hpos first b hfirst hl
    have hlength := hi.headerLength_eq ((byte?_packet bs).trans hfirst)
    exact ofBytes_set_version hfirst hl (by omega)

/-- A frame with a datagram from port 1234 to port 53, behind a packet header with four bytes
of options that begins with some byte. -/
def datagramFrame (first : UInt8) : List UInt8 :=
  [2, 0, 0, 0, 0, 2, 2, 0, 0, 0, 0, 1, 8, 0,
    first, 0, 0, 32, 0, 32, 0, 0, 64, 17, 0xab, 0xcd, 10, 0, 0, 1, 10, 0, 0, 2, 1, 1, 1, 0,
    4, 0xd2, 0, 53, 0, 8, 0, 0, 0, 0]

/-- With its own first byte the datagram is shown, and in a packet of version 6 as well. -/
theorem layers_apart_iff_datagram :
    (ofBytes (datagramFrame 0x46)).transport = some (.udp
      { sourcePort := 1234, destinationPort := 53, length := 8, checksum := 0 }) ∧
    (∃ i, (ofBytes (datagramFrame 0x46)).ipv4 = some i ∧ i.Genuine ∧
      Apart (datagramFrame 0x46) (ofBytes (datagramFrame 0x46))) ∧
    ofBytes (datagramFrame 0x66) = (ofBytes (datagramFrame 0x46)).withVersion 6 := by
  have ht : (ofBytes (datagramFrame 0x46)).transport = some (.udp
      { sourcePort := 1234, destinationPort := 53, length := 8, checksum := 0 }) := rfl
  obtain ⟨i, hi, genuine, -, -, version⟩ := layers_apart_iff ht
  obtain ⟨hgenuine, hapart⟩ := genuine.mpr ⟨0x46, rfl, by decide, by decide⟩
  have hpos : 0 < i.headerLength := Nat.lt_of_lt_of_le (by decide) hgenuine.2
  exact ⟨ht, ⟨i, hi, hgenuine, hapart⟩, version hpos 0x46 0x66 rfl rfl⟩

/-- With a header length of zero the first bytes of the packet are shown as a datagram, and
its own datagram as a part of the payload; a packet of version 6 is shown as complete. -/
theorem overlapping_layers :
    (ofBytes (datagramFrame 0x40)).transport = some (.udp
      { sourcePort := 0x4000, destinationPort := 32, length := 32, checksum := 0 }) ∧
    (ofBytes (datagramFrame 0x40)).payloadLength = some 24 ∧
    ¬ Apart (datagramFrame 0x40) (ofBytes (datagramFrame 0x40)) ∧
    (¬ ∀ bs t, (ofBytes bs).transport = some t →
      ∃ i, (ofBytes bs).ipv4 = some i ∧ i.Genuine) ∧
    (¬ ∀ bs t, (ofBytes bs).transport = some t → Apart bs (ofBytes bs)) ∧
    (¬ ∀ bs i, (ofBytes bs).ipv4 = some i → i.headerLength < 20 →
      (ofBytes bs).ending ≠ .complete) ∧
    ¬ ∀ bs i, (ofBytes bs).ipv4 = some i → i.version ≠ 4 → (ofBytes bs).ending ≠ .complete := by
  have ht : (ofBytes (datagramFrame 0x40)).transport = some (.udp
      { sourcePort := 0x4000, destinationPort := 32, length := 32, checksum := 0 }) := rfl
  have hoverlap : ¬ Apart (datagramFrame 0x40) (ofBytes (datagramFrame 0x40)) := by
    rw [apart_iff ht rfl]
    decide
  refine ⟨ht, rfl, hoverlap, fun h => ?_, fun h => ?_, fun h => ?_, fun h => ?_⟩
  · obtain ⟨i, hi, hgenuine⟩ := h _ _ ht
    cases hi
    exact absurd hgenuine.2 (by decide)
  · exact hoverlap (h _ _ ht)
  · exact h (datagramFrame 0x40) _ rfl (by decide) rfl
  · exact h (datagramFrame 0x66) _ rfl (by decide) rfl

end Summary
end SoftNic
