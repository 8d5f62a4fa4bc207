import Mathlib.Tactic.SplitIfs
import SoftNic.Proofs.HeaderFields

/-! # Six ways in which the search for headers ends

The summary of a frame comes out of nested decisions.  Here they are taken once: a search
ends before the Ethernet header, at a type that is not IPv4, inside the IPv4 header, at a
protocol that is neither UDP nor TCP, inside the transport header, or behind the payload
(`Summary.Search`), and each end comes with what was found on the way.  A frame has one
search and its summary is the outcome (`Summary.search_iff`).
-/
namespace SoftNic

open Dissection

variable {bs payload : List UInt8} {n : Nat} {p : UInt8}

theorem Ipv4Header.tcp_ne_udp : Ipv4Header.tcp ≠ Ipv4Header.udp := by
  decide

namespace TransportHeader

variable {t : TransportHeader}

/-- Read the transport header of a protocol, and the number of payload bytes. -/
def read? (p : UInt8) (bs : List UInt8) : Option (TransportHeader × Nat) :=
  if p = Ipv4Header.udp then (UdpHeader.read? bs).map fun r => (udp r.1, r.2)
  else if p = Ipv4Header.tcp then (TcpHeader.read? bs).map fun r => (tcp r.1, r.2)
  else none

/-- A transport header stands at the beginning of a byte string. -/
inductive At (bs : List UInt8) : TransportHeader → Nat → Prop
  | udp {h : UdpHeader} {n : Nat} (ha : UdpHeader.At bs h n) : At bs (udp h) n
  | tcp {h : TcpHeader} {n : Nat} (ha : TcpHeader.At bs h n) : At bs (tcp h) n

theorem read?_eq_some_iff : read? p bs = some (t, n) ↔ p = t.protocol ∧ At bs t n := by
  unfold read?
  constructor
  · intro h
    split_ifs at h with hu ht
    · obtain ⟨⟨u, m⟩, hr, he⟩ := Option.map_eq_some_iff.mp h
      cases he
      exact ⟨hu, .udp (UdpHeader.read?_eq_some_iff.mp hr)⟩
    · obtain ⟨⟨s, m⟩, hr, he⟩ := Option.map_eq_some_iff.mp h
      cases he
      exact ⟨ht, .tcp (TcpHeader.read?_eq_some_iff.mp hr)⟩
  · rintro ⟨rfl, ha⟩
    cases ha with
    | udp ha => simp [protocol, UdpHeader.read?_eq_some_iff.mpr ha]
    | tcp ha => simp [protocol, Ipv4Header.tcp_ne_udp, TcpHeader.read?_eq_some_iff.mpr ha]

end TransportHeader

namespace Summary

variable {s : Summary}

/-- A protocol has a transport header that can be read. -/
def HasTransport (p : UInt8) : Prop :=
  p = Ipv4Header.udp ∨ p = Ipv4Header.tcp

theorem withTransport_of_not_hasTransport (h : ¬ HasTransport p) (s : Summary)
    (payload : List UInt8) : s.withTransport p payload = { s with ending := .otherTransport } := by
  obtain ⟨hu, ht⟩ := not_or.mp h
  rw [withTransport, if_neg hu, if_neg ht]

theorem withTransport_eq (h : HasTransport p) (s : Summary) (payload : List UInt8) :
    s.withTransport p payload =
      match TransportHeader.read? p payload with
      | none => s
      | some (t, n) =>
        { s with transport := some t, payloadLength := some n, ending := .complete } := by
  rcases h with rfl | rfl
  · rw [withTransport, if_pos rfl, TransportHeader.read?, if_pos rfl]
    cases UdpHeader.read? payload <;> rfl
  · rw [withTransport, if_neg Ipv4Header.tcp_ne_udp, if_pos rfl, TransportHeader.read?,
      if_neg Ipv4Header.tcp_ne_udp, if_pos rfl]
    cases TcpHeader.read? payload <;> rfl

/-- How the search for the headers of a frame ends, and what it has found by then. -/
inductive Search (bs : List UInt8) : Summary → Prop
  | short (he : EthernetHeader.read? bs = none) : Search bs { length := bs.length }
  | notIpv4 {e : EthernetHeader} (he : e.At bs) (ht : e.etherType ≠ EthernetHeader.ipv4Type) :
    Search bs { length := bs.length, ethernet := some e, ending := .notIpv4 }
  | shortPacket {e : EthernetHeader} (he : e.At bs) (ht : e.etherType = EthernetHeader.ipv4Type)
    (hi : Ipv4Header.read? (bs.drop EthernetHeader.size) = none) :
    Search bs { length := bs.length, ethernet := some e }
  | otherTransport {e : EthernetHeader} {i : Ipv4Header} (he : e.At bs)
    (ht : e.etherType = EthernetHeader.ipv4Type) (hi : i.At (bs.drop EthernetHeader.size))
    (hp : ¬ HasTransport i.protocol) :
    Search bs
      { length := bs.length, ethernet := some e, ipv4 := some i, ending := .otherTransport }
  | shortTransport {e : EthernetHeader} {i : Ipv4Header} (he : e.At bs)
    (ht : e.etherType = EthernetHeader.ipv4Type) (hi : i.At (bs.drop EthernetHeader.size))
    (hp : HasTransport i.protocol)
    (hr : TransportHeader.read? i.protocol (i.payload (bs.drop EthernetHeader.size)) = none) :
    Search bs { length := bs.length, ethernet := some e, ipv4 := some i }
  | complete {e : EthernetHeader} {i : Ipv4Header} {t : TransportHeader} {n : Nat} (he : e.At bs)
    (ht : e.etherType = EthernetHeader.ipv4Type) (hi : i.At (bs.drop EthernetHeader.size))
    (hp : i.protocol = t.protocol) (hr : t.At (i.payload (bs.drop EthernetHeader.size)) n) :
    Search bs
      { length := bs.length, ethernet := some e, ipv4 := some i, transport := some t,
        payloadLength := some n, ending := .complete }

theorem hasTransport_protocol (t : TransportHeader) : HasTransport t.protocol := by
  cases t with
  | udp h => exact Or.inl rfl
  | tcp h => exact Or.inr rfl

/-- A frame that carries IPv4 is searched on behind its header. -/
theorem ofBytes_of_ipv4 {e : EthernetHeader} (he : e.At bs)
    (ht : e.etherType = EthernetHeader.ipv4Type) :
    ofBytes bs =
      { length := bs.length, ethernet := some e : Summary }.withPacket
        (bs.drop EthernetHeader.size) := by
  simp [ofBytes, EthernetHeader.read?_eq_some_iff.mpr he, ht]

/-- A packet is searched on behind its header. -/
theorem withPacket_of_at {i : Ipv4Header} (hi : i.At bs) (s : Summary) :
    s.withPacket bs = { s with ipv4 := some i }.withTransport i.protocol (i.payload bs) := by
  rw [withPacket, Ipv4Header.read?_eq_some_iff.mpr hi]

theorem search_ofBytes (bs : List UInt8) : Search bs (ofBytes bs) := by
  -- The decisions are taken from the outside in, each with the summary as far as it is known.
  cases he : EthernetHeader.read? bs with
  | none =>
    rw [ofBytes, he]
    exact .short he
  | some e =>
    have hae := EthernetHeader.read?_eq_some_iff.mp he
    by_cases ht : e.etherType = EthernetHeader.ipv4Type
    · rw [ofBytes_of_ipv4 hae ht]
      cases hi : Ipv4Header.read? (bs.drop EthernetHeader.size) with
      | none =>
        rw [withPacket, hi]
        exact .shortPacket hae ht hi
      | some i =>
        have hai := Ipv4Header.read?_eq_some_iff.mp hi
        rw [withPacket_of_at hai]
        by_cases hp : HasTransport i.protocol
        · rw [withTransport_eq hp]
          split
          · next hr => exact .shortTransport hae ht hai hp hr
          · next hr =>
            obtain ⟨hp', hat⟩ := TransportHeader.read?_eq_some_iff.mp hr
            exact .complete hae ht hai hp' hat
        · rw [withTransport_of_not_hasTransport hp]
          exact .otherTransport hae ht hai hp
    · simp only [ofBytes, he, if_neg ht]
      exact .notIpv4 hae ht

/-- A search has one outcome. -/
theorem Search.eq (h : Search bs s) : s = ofBytes bs := by
  cases h with
  | short he => rw [ofBytes, he]
  | notIpv4 he ht => simp [ofBytes, EthernetHeader.read?_eq_some_iff.mpr he, ht]
  | shortPacket he ht hi => rw [ofBytes_of_ipv4 he ht, withPacket, hi]
  | otherTransport he ht hi hp =>
    rw [ofBytes_of_ipv4 he ht, withPacket_of_at hi, withTransport_of_not_hasTransport hp]
  | shortTransport he ht hi hp hr =>
    rw [ofBytes_of_ipv4 he ht, withPacket_of_at hi, withTransport_eq hp, hr]
  | @complete e i t n he ht hi hp hr =>
    have hp' : HasTransport i.protocol := hp ▸ hasTransport_protocol t
    have hr' := TransportHeader.read?_eq_some_iff.mpr ⟨hp, hr⟩
    rw [ofBytes_of_ipv4 he ht, withPacket_of_at hi, withTransport_eq hp', hr']

/-- **The summary of a frame is the outcome of its search.** -/
theorem search_iff : Search bs s ↔ s = ofBytes bs := by
  constructor
  · exact Search.eq
  · rintro rfl
    exact search_ofBytes bs

end Summary
end SoftNic
