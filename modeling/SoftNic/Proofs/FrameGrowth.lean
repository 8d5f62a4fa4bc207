import SoftNic.Proofs.HeaderSearch

/-! # Longer frames

A frame may arrive cut off, and a short one is padded on the wire.  Both are one question:
what does the summary of a byte string say about the summary of a longer one that begins
with it?

A search that got past the Ethernet header to an IPv4 header or to another type is settled
(`Summary.Settled`): the IPv4 header says where the packet ends, so nothing that follows is
looked at, and the summary of the longer frame differs in the number of bytes only.  A
search that is not settled ended in a header, and its Ethernet header, if it has one, is
found again.  **`ofBytes_extends`: the summary of a frame is extended by that of any frame
that begins with it.**
-/
namespace SoftNic
namespace Summary

open Dissection

variable {bs : List UInt8} {s : Summary}

/-- More bytes cannot change what was found. -/
def Settled (s : Summary) : Prop :=
  s.ipv4.isSome ∨ s.ending = .notIpv4

/-- A summary says all that another one says, and differs from it only where that one was
cut off. -/
structure Extends (s s' : Summary) : Prop where
  ethernet : ∀ e, s.ethernet = some e → s'.ethernet = some e
  ipv4 : ∀ i, s.ipv4 = some i → s'.ipv4 = some i
  transport : ∀ t, s.transport = some t → s'.transport = some t
  payloadLength : ∀ n, s.payloadLength = some n → s'.payloadLength = some n
  settled : s.Settled → s' = { s with length := s'.length }
  truncated : s' ≠ { s with length := s'.length } → s.ending = .truncated

/-! ## The Ethernet header -/

@[simp] theorem ethernet_withTransport (s : Summary) (p : UInt8) (payload : List UInt8) :
    (s.withTransport p payload).ethernet = s.ethernet := by
  by_cases h : HasTransport p
  · rw [withTransport_eq h]
    split <;> rfl
  · rw [withTransport_of_not_hasTransport h]

@[simp] theorem ethernet_withPacket (s : Summary) (packet : List UInt8) :
    (s.withPacket packet).ethernet = s.ethernet := by
  unfold withPacket
  split
  · rfl
  · simp

theorem ethernet_ofBytes {e : EthernetHeader} (he : e.At bs) : (ofBytes bs).ethernet = some e := by
  by_cases ht : e.etherType = EthernetHeader.ipv4Type
  · simp [ofBytes_of_ipv4 he ht]
  · rw [← (Search.notIpv4 he ht).eq]

/-! ## Settled searches -/

/-- What is behind the Ethernet header grows with the frame. -/
theorem packet_append {e : EthernetHeader} (he : e.At bs) (more : List UInt8) :
    (bs ++ more).drop EthernetHeader.size = bs.drop EthernetHeader.size ++ more :=
  List.drop_append_of_le_length he.size_le

/-- **A settled search ends the same way in a longer frame.** -/
theorem Search.append (h : Search bs s) (hs : s.Settled) (more : List UInt8) :
    Search (bs ++ more) { s with length := (bs ++ more).length } := by
  have grown {e : EthernetHeader} {i : Ipv4Header} (he : e.At bs)
      (hi : i.At (bs.drop EthernetHeader.size)) :
      i.At ((bs ++ more).drop EthernetHeader.size) ∧
        i.payload ((bs ++ more).drop EthernetHeader.size) =
          i.payload (bs.drop EthernetHeader.size) := by
    rw [packet_append he]
    exact ⟨hi.append more, Ipv4Header.payload_append hi more⟩
  -- Two searches ended for want of bytes before the packet's end was known; they are not settled.
  cases h with
  | short he => simp [Settled] at hs
  | notIpv4 he ht => exact .notIpv4 (he.append more) ht
  | shortPacket he ht hi => simp [Settled] at hs
  | otherTransport he ht hi hp =>
    exact .otherTransport (he.append more) ht (grown he hi).1 hp
  | shortTransport he ht hi hp hr =>
    obtain ⟨hi', hpay⟩ := grown he hi
    exact .shortTransport (he.append more) ht hi' hp (hpay ▸ hr)
  | complete he ht hi hp hr =>
    obtain ⟨hi', hpay⟩ := grown he hi
    exact .complete (he.append more) ht hi' hp (hpay ▸ hr)

/-- A search that is not settled was cut off, and at most the Ethernet header was found. -/
theorem Search.of_not_settled (h : Search bs s) (hs : ¬ s.Settled) :
    s.ending = .truncated ∧ s.ipv4 = none ∧ s.transport = none ∧ s.payloadLength = none ∧
      ∀ e, s.ethernet = some e → e.At bs := by
  cases h with
  | short he => simp
  | shortPacket he ht hi =>
    refine ⟨rfl, rfl, rfl, rfl, ?_⟩
    intro e h
    obtain rfl := Option.some.inj h
    exact he
  | notIpv4 | otherTransport | shortTransport | complete => simp [Settled] at hs

/-- **Cutting a frame never invents or alters a header, and padding it never changes one.** -/
theorem ofBytes_extends (bs more : List UInt8) : Extends (ofBytes bs) (ofBytes (bs ++ more)) := by
  have search := search_ofBytes bs
  by_cases hs : (ofBytes bs).Settled
  · have same := (search.append hs more).eq
    rw [← same]
    exact ⟨fun _ h => h, fun _ h => h, fun _ h => h, fun _ h => h, fun _ => rfl,
      fun h => absurd rfl h⟩
  · obtain ⟨hcut, hi, ht, hn, he⟩ := search.of_not_settled hs
    refine ⟨?_, ?_, ?_, ?_, fun h => absurd h hs, fun _ => hcut⟩
    · intro e h
      exact ethernet_ofBytes ((he e h).append more)
    · simp [hi]
    · simp [ht]
    · simp [hn]

end Summary
end SoftNic
