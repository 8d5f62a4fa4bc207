import SoftNic.Proofs.HeaderSearch

/-! # Packets of another version

The first byte of a packet holds its version and its header length.  The header length says
where the transport header is looked for; the version is shown in the summary and otherwise
not looked at.  **`Summary.ofBytes_set_version`: a frame in which only the version was
replaced has the same summary, with the other version in it**, and so its search ends in the
same way, whatever the version is.

There is one exception, and it is about the other half of the byte: with a declared header
length of zero the packet is its own payload, and the version is a part of the source port.
-/
namespace SoftNic

open Dissection

variable {bs : List UInt8} {start count k : Nat} {b first : UInt8}

namespace Dissection

/-! ## One byte replaced -/

/-- A field is what it was when a byte outside of it is replaced. -/
theorem span?_set (h : k < start ∨ start + count ≤ k) :
    span? (bs.set k b) start count = span? bs start count := by
  have same : ((bs.set k b).drop start).take count = (bs.drop start).take count := by
    rw [List.drop_set]
    split
    · rfl
    · rw [List.take_set, List.set_eq_of_length_le]
      rw [List.length_take]
      omega
  rw [span?, span?, List.length_set, same]

theorem byte?_set (h : k < start ∨ start + 1 ≤ k) : byte? (bs.set k b) start = byte? bs start := by
  rw [byte?, byte?, span?_set h]

theorem word?_set (h : k < start ∨ start + 2 ≤ k) : word? (bs.set k b) start = word? bs start := by
  rw [word?, word?, span?_set h]

/-- The byte at a position is the element there. -/
theorem byte?_eq_getElem? (bs : List UInt8) (k : Nat) : byte? bs k = bs[k]? := by
  by_cases h : k < bs.length
  · have one : (bs.drop k).take 1 = [bs[k]] := by
      rw [List.drop_eq_getElem_cons h, List.take_succ_cons, List.take_zero]
    rw [byte?, span?, if_pos (Nat.succ_le_of_lt h), one, List.getElem?_eq_getElem h]
    simp [bigEndian]
  · rw [byte?, span?, if_neg (by omega), List.getElem?_eq_none (by omega)]
    rfl

/-- A byte may be put where it is. -/
theorem set_byte?_self (h : byte? bs k = some first) : bs.set k first = bs := by
  rw [byte?_eq_getElem?] at h
  obtain ⟨hk, rfl⟩ := List.getElem?_eq_some_iff.mp h
  exact List.set_getElem_self hk

theorem byte?_set_self (h : byte? bs k = some first) : byte? (bs.set k b) k = some b := by
  rw [byte?_eq_getElem?] at h ⊢
  exact List.getElem?_set_self (List.getElem?_eq_some_iff.mp h).1

end Dissection

theorem MacAddress.at?_set (h : k < start ∨ start + 6 ≤ k) :
    MacAddress.at? (bs.set k b) start = MacAddress.at? bs start := by
  rw [MacAddress.at?, MacAddress.at?, span?_set h]

theorem Ipv4Address.at?_set (h : k < start ∨ start + 4 ≤ k) :
    Ipv4Address.at? (bs.set k b) start = Ipv4Address.at? bs start := by
  rw [Ipv4Address.at?, Ipv4Address.at?, span?_set h]

/-- The Ethernet header is not in the packet. -/
theorem EthernetHeader.read?_set (h : size ≤ k) : read? (bs.set k b) = read? bs := by
  have hk : 14 ≤ k := h
  rw [read?, read?, MacAddress.at?_set (by omega), MacAddress.at?_set (by omega),
    word?_set (by omega)]

namespace Ipv4Header

variable {h : Ipv4Header}

/-- A header with another version. -/
def withVersion (v : UInt8) (h : Ipv4Header) : Ipv4Header :=
  { h with version := v }

/-- The first byte declares the header length. -/
theorem At.headerLength_eq (ha : At bs h) (hfirst : byte? bs 0 = some first) :
    4 * (first.toNat % 16) = h.headerLength := by
  obtain ⟨a, ha, -, hlength⟩ := ha.first
  obtain rfl := Option.some.inj (hfirst.symm.trans ha)
  exact hlength

/-- A header is found again, with the other version, when the first byte is replaced by one
that declares the same header length. -/
theorem At.set_zero (ha : At bs h) (hfirst : byte? bs 0 = some first)
    (hl : b.toNat % 16 = first.toNat % 16) : At (bs.set 0 b) (h.withVersion (b >>> 4)) := by
  have fits := ha.total_le
  constructor
  case first =>
    refine ⟨b, byte?_set_self hfirst, rfl, ?_⟩
    rw [hl]
    exact ha.headerLength_eq hfirst
  case header_le_total => exact ha.header_le_total
  case total_le => rwa [List.length_set]
  -- The other fields are behind the first byte.
  all_goals
    simp (disch := omega) only [byte?_set, word?_set, Ipv4Address.at?_set, withVersion]
    cases ha
    assumption

/-- Reading takes no notice of the version that it reads. -/
theorem read?_set_zero (hfirst : byte? bs 0 = some first)
    (hl : b.toNat % 16 = first.toNat % 16) :
    read? (bs.set 0 b) = (read? bs).map (withVersion (b >>> 4)) := by
  cases hr : read? bs with
  | some h => exact read?_eq_some_iff.mpr ((read?_eq_some_iff.mp hr).set_zero hfirst hl)
  | none =>
    -- A header that is found with the new byte would be found with the old one in its place.
    refine Option.eq_none_iff_forall_ne_some.mpr fun h hs => ?_
    have back := (read?_eq_some_iff.mp hs).set_zero (byte?_set_self hfirst) hl.symm
    rw [List.set_set, set_byte?_self hfirst] at back
    rw [read?_eq_some_iff.mpr back] at hr
    cases hr

/-- The first byte is not in the payload, unless the header has no bytes. -/
theorem payload_set_zero (h : Ipv4Header) (hpos : 0 < h.headerLength) :
    h.payload (bs.set 0 b) = h.payload bs := by
  rw [payload, payload, List.take_set, List.drop_set, if_pos hpos]

end Ipv4Header

namespace Summary

/-- A summary with another version in it. -/
def withVersion (v : UInt8) (s : Summary) : Summary :=
  { s with ipv4 := s.ipv4.map (Ipv4Header.withVersion v) }

/-- The first byte of a packet is the fifteenth of its frame. -/
theorem byte?_packet (bs : List UInt8) : byte? (bs.drop EthernetHeader.size) 0 = byte? bs 14 := by
  rw [byte?_eq_getElem?, byte?_eq_getElem?, List.getElem?_drop]
  rfl

/-- A search ends in the same way when the version is replaced. -/
theorem Search.set_version {s : Summary} (h : Search bs s) (hfirst : byte? bs 14 = some first)
    (hl : b.toNat % 16 = first.toNat % 16) (hpos : first.toNat % 16 ≠ 0) :
    Search (bs.set 14 b) (s.withVersion (b >>> 4)) := by
  have hframe : EthernetHeader.read? (bs.set 14 b) = EthernetHeader.read? bs :=
    EthernetHeader.read?_set (Nat.le_refl 14)
  have hpacket : (bs.set 14 b).drop EthernetHeader.size = (bs.drop EthernetHeader.size).set 0 b :=
    List.drop_set
  have hfirst' : byte? (bs.drop EthernetHeader.size) 0 = some first :=
    (byte?_packet bs).trans hfirst
  have ethernet {e : EthernetHeader} (he : e.At bs) : e.At (bs.set 14 b) := by
    rw [← EthernetHeader.read?_eq_some_iff, hframe, EthernetHeader.read?_eq_some_iff]
    exact he
  have ipv4 {i : Ipv4Header} (hi : i.At (bs.drop EthernetHeader.size)) :
      (i.withVersion (b >>> 4)).At ((bs.set 14 b).drop EthernetHeader.size) := by
    rw [hpacket]
    exact hi.set_zero hfirst' hl
  have payload {i : Ipv4Header} (hi : i.At (bs.drop EthernetHeader.size)) :
      (i.withVersion (b >>> 4)).payload ((bs.set 14 b).drop EthernetHeader.size) =
        i.payload (bs.drop EthernetHeader.size) := by
    have hlength : 4 * (first.toNat % 16) = i.headerLength := hi.headerLength_eq hfirst'
    rw [hpacket]
    exact Ipv4Header.payload_set_zero i (show 0 < i.headerLength by omega)
  have whole : bs.length = (bs.set 14 b).length := List.length_set.symm
  cases h with
  | short he =>
    rw [whole]
    exact .short (hframe.trans he)
  | notIpv4 he ht =>
    rw [whole]
    exact .notIpv4 (ethernet he) ht
  | shortPacket he ht hi =>
    rw [whole]
    refine .shortPacket (ethernet he) ht ?_
    rw [hpacket, Ipv4Header.read?_set_zero hfirst' hl, hi]
    rfl
  | otherTransport he ht hi hp =>
    rw [whole]
    exact .otherTransport (ethernet he) ht (ipv4 hi) hp
  | shortTransport he ht hi hp hr =>
    rw [whole]
    exact .shortTransport (ethernet he) ht (ipv4 hi) hp ((payload hi).symm ▸ hr)
  | complete he ht hi hp hr =>
    rw [whole]
    exact .complete (ethernet he) ht (ipv4 hi) hp ((payload hi).symm ▸ hr)

/-- **Nothing depends on the version of a packet.** -/
theorem ofBytes_set_version (hfirst : byte? bs 14 = some first)
    (hl : b.toNat % 16 = first.toNat % 16) (hpos : first.toNat % 16 ≠ 0) :
    ofBytes (bs.set 14 b) = (ofBytes bs).withVersion (b >>> 4) :=
  ((search_ofBytes bs).set_version hfirst hl hpos).eq.symm

end Summary
end SoftNic
