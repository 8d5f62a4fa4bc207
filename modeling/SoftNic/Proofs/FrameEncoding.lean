import Mathlib.Data.Nat.Bitwise
import SoftNic.Proofs.HeaderSearch

/-! # Frames that are put together

A sender chooses the fields of the headers, options and a payload; the lengths follow from
them.  The bytes of a header are its fields one after the other, most significant byte first
(`bytesOf`), so a field is found where the fields before it end (`span?_field`), whatever
they are.  **`Summary.ofBytes_encodeFrame`: the summary of a frame that was put together has
every field that was chosen**, the lengths that follow, and the number of payload bytes.
-/
namespace SoftNic

namespace Dissection

variable {fields : List (List UInt8)} {p rest : List UInt8} {k n start count : Nat}

/-! ## Fields one after the other -/

/-- A number in so many bytes, most significant byte first. -/
def bytesOf : Nat → Nat → List UInt8
  | 0, _ => []
  | width + 1, n => bytesOf width (n / 256) ++ [UInt8.ofNat n]

@[simp] theorem length_bytesOf (width n : Nat) : (bytesOf width n).length = width := by
  induction width generalizing n with
  | zero => rfl
  | succ width ih => rw [bytesOf, List.length_append, ih, List.length_singleton]

theorem bigEndian_concat (bs : List UInt8) (b : UInt8) :
    bigEndian (bs ++ [b]) = 256 * bigEndian bs + b.toNat := by
  simp [bigEndian]

/-- What does not fit in the bytes is lost, and nothing else. -/
theorem bigEndian_bytesOf (width n : Nat) : bigEndian (bytesOf width n) = n % 256 ^ width := by
  induction width generalizing n with
  | zero => simp [bytesOf, bigEndian, Nat.mod_one]
  | succ width ih =>
    have low : (UInt8.ofNat n).toNat = n % 256 := UInt8.toNat_ofNat'
    have whole : n % 256 ^ (width + 1) = n % 256 + 256 * (n / 256 % 256 ^ width) := by
      rw [Nat.pow_succ, Nat.mul_comm, Nat.mod_mul]
    rw [bytesOf, bigEndian_concat, ih, low, whole, Nat.add_comm]

/-- A field stands behind the fields before it. -/
theorem span?_field (h : fields[k]? = some p) (hs : (fields.take k).flatten.length = start)
    (hp : p.length = count) : span? (fields.flatten ++ rest) start count = some p := by
  obtain ⟨hk, rfl⟩ := List.getElem?_eq_some_iff.mp h
  have whole : fields.take k ++ fields[k] :: fields.drop (k + 1) = fields := by
    rw [← List.drop_eq_getElem_cons hk, List.take_append_drop]
  have split : fields.flatten ++ rest =
      (fields.take k).flatten ++ (fields[k] ++ ((fields.drop (k + 1)).flatten ++ rest)) := by
    rw [← List.append_assoc fields[k], ← List.flatten_cons, ← List.append_assoc,
      ← List.flatten_append, whole]
  rw [split, span?_eq_some_iff, ← hs, ← hp]
  simp

theorem byte?_field {b : UInt8} (h : fields[k]? = some (bytesOf 1 n))
    (hs : (fields.take k).flatten.length = start) (hb : UInt8.ofNat n = b) :
    byte? (fields.flatten ++ rest) start = some b := by
  refine byte?_eq_some_iff.mpr ⟨_, span?_field h hs (length_bytesOf 1 n), ?_⟩
  rw [bigEndian_bytesOf, ← hb]
  exact UInt8.toNat_inj.mp (by simp)

theorem word?_field {w : UInt16} (h : fields[k]? = some (bytesOf 2 n))
    (hs : (fields.take k).flatten.length = start) (hw : UInt16.ofNat n = w) :
    word? (fields.flatten ++ rest) start = some w := by
  refine word?_eq_some_iff.mpr ⟨_, span?_field h hs (length_bytesOf 2 n), ?_⟩
  rw [bigEndian_bytesOf, ← hw]
  exact UInt16.toNat_inj.mp (by simp)

theorem long?_field {w : UInt32} (h : fields[k]? = some (bytesOf 4 n))
    (hs : (fields.take k).flatten.length = start) (hw : UInt32.ofNat n = w) :
    long? (fields.flatten ++ rest) start = some w := by
  refine long?_eq_some_iff.mpr ⟨_, span?_field h hs (length_bytesOf 4 n), ?_⟩
  rw [bigEndian_bytesOf, ← hw]
  exact UInt32.toNat_inj.mp (by simp)

/-- A length that fits in a word is read back. -/
theorem toNat_ofNat_of_le {n : Nat} (h : n ≤ 65535) : (UInt16.ofNat n).toNat = n :=
  UInt16.toNat_ofNat_of_lt' (Nat.lt_succ_of_le h)

/-- One bit of a word. -/
theorem word_and_bit (w : UInt16) {i : Nat} (hi : i < 16) :
    (w &&& UInt16.ofNat (2 ^ i) != 0) = w.toNat.testBit i := by
  have hpow : 2 ^ i < UInt16.size := Nat.pow_lt_pow_right (by decide) hi
  have value : (w &&& UInt16.ofNat (2 ^ i)).toNat = (w.toNat.testBit i).toNat * 2 ^ i := by
    rw [UInt16.toNat_and, UInt16.toNat_ofNat_of_lt' hpow, Nat.and_two_pow]
  rw [Bool.eq_iff_iff, bne_iff_ne, ne_eq, ← UInt16.toNat_inj, value]
  cases w.toNat.testBit i <;> simp

end Dissection

open Dissection

variable {rest carried : List UInt8} {n : Nat}

/-! ## Headers -/

/-- What may stand at the end of a header: up to ten words of four bytes each. -/
structure HeaderOptions where
  words : Fin 11
  bytes : List UInt8
  length_bytes : bytes.length = 4 * words.val := by rfl

/-- The fields of an IPv4 header that a sender chooses. -/
structure Ipv4Fields where
  dscp : Fin 64
  ecn : Fin 4
  identification : UInt16
  dontFragment : Bool
  moreFragments : Bool
  /-- In units of eight bytes. -/
  fragmentOffset : Fin 8192
  timeToLive : UInt8
  checksum : UInt16
  source : Ipv4Address
  destination : Ipv4Address
  options : HeaderOptions
  length_source : source.octets.length = 4 := by rfl
  length_destination : destination.octets.length = 4 := by rfl

namespace Ipv4Fields

variable (f : Ipv4Fields) (p : UInt8)

/-- The number of bytes of the header. -/
def size : Nat := 20 + 4 * f.options.words.val

/-- The fields in their order, for a packet of so many bytes. -/
def fields (total : Nat) : List (List UInt8) :=
  [bytesOf 1 (16 * 4 + (5 + f.options.words.val)), bytesOf 1 (4 * f.dscp.val + f.ecn.val),
    bytesOf 2 total, bytesOf 2 f.identification.toNat,
    bytesOf 2 (2 ^ 14 * f.dontFragment.toNat + 2 ^ 13 * f.moreFragments.toNat
      + f.fragmentOffset.val),
    bytesOf 1 f.timeToLive.toNat, bytesOf 1 p.toNat, bytesOf 2 f.checksum.toNat,
    f.source.octets, f.destination.octets, f.options.bytes]

/-- The packet with a header of these fields in front of what it carries. -/
def encode (carried : List UInt8) : List UInt8 :=
  (f.fields p (f.size + carried.length)).flatten ++ carried

/-- The header as it is read back. -/
def header (total : Nat) : Ipv4Header where
  version := 4
  headerLength := f.size
  dscp := UInt8.ofNat f.dscp.val
  ecn := UInt8.ofNat f.ecn.val
  totalLength := UInt16.ofNat total
  identification := f.identification
  dontFragment := f.dontFragment
  moreFragments := f.moreFragments
  fragmentOffset := 8 * f.fragmentOffset.val
  timeToLive := f.timeToLive
  protocol := p
  checksum := f.checksum
  source := f.source
  destination := f.destination

theorem length_fields (total : Nat) : (f.fields p total).flatten.length = f.size := by
  simp [fields, size, f.length_source, f.length_destination, f.options.length_bytes]
  omega

theorem length_encode (carried : List UInt8) :
    (f.encode p carried).length = f.size + carried.length := by
  rw [encode, List.length_append, length_fields]

/-- The first byte holds the version and the header length in words. -/
theorem first_byte (words : Fin 11) :
    UInt8.ofNat (16 * 4 + (5 + words.val)) >>> 4 = 4 ∧
      4 * ((UInt8.ofNat (16 * 4 + (5 + words.val))).toNat % 16) = 20 + 4 * words.val := by
  revert words
  decide

/-- The second byte holds the class of service and the congestion bits. -/
theorem second_byte (d : Fin 64) (e : Fin 4) :
    UInt8.ofNat (4 * d.val + e.val) >>> 2 = UInt8.ofNat d.val ∧
      UInt8.ofNat (4 * d.val + e.val) &&& 3 = UInt8.ofNat e.val := by
  have hd := d.isLt
  have he := e.isLt
  have whole : (UInt8.ofNat (4 * d.val + e.val)).toNat = 4 * d.val + e.val :=
    UInt8.toNat_ofNat_of_lt' (show _ < 256 by omega)
  have upper : (UInt8.ofNat d.val).toNat = d.val := UInt8.toNat_ofNat_of_lt' (show _ < 256 by omega)
  have lower : (UInt8.ofNat e.val).toNat = e.val := UInt8.toNat_ofNat_of_lt' (show _ < 256 by omega)
  constructor
  · apply UInt8.toNat_inj.mp
    rw [UInt8.toNat_shiftRight, whole, upper]
    show (4 * d.val + e.val) >>> 2 = d.val
    rw [Nat.shiftRight_eq_div_pow]
    omega
  · apply UInt8.toNat_inj.mp
    rw [UInt8.toNat_and, whole, lower]
    show (4 * d.val + e.val) &&& (2 ^ 2 - 1) = e.val
    rw [Nat.and_two_pow_sub_one_eq_mod]
    omega

/-- The word of the fragment holds two bits and the offset. -/
theorem fragment_word (df mf : Bool) (o : Fin 8192) :
    let w := UInt16.ofNat (2 ^ 14 * df.toNat + 2 ^ 13 * mf.toNat + o.val)
    (w &&& 0x4000 != 0) = df ∧ (w &&& 0x2000 != 0) = mf ∧ w.toNat % 8192 = o.val := by
  intro w
  have ho := o.isLt
  have value : w.toNat = 2 ^ 14 * df.toNat + 2 ^ 13 * mf.toNat + o.val := by
    apply UInt16.toNat_ofNat_of_lt'
    cases df <;> cases mf <;> simp [UInt16.size] <;> omega
  refine ⟨?_, ?_, ?_⟩
  · have bit := word_and_bit w (show 14 < 16 by decide)
    rw [value, Nat.testBit_eq_decide_div_mod_eq] at bit
    refine bit.trans ?_
    cases df <;> cases mf <;> simp <;> omega
  · have bit := word_and_bit w (show 13 < 16 by decide)
    rw [value, Nat.testBit_eq_decide_div_mod_eq] at bit
    refine bit.trans ?_
    cases df <;> cases mf <;> simp <;> omega
  · rw [value]
    cases df <;> cases mf <;> simp <;> omega

variable {f p}

/-- What is carried stands behind the header. -/
theorem payload_encode (fits : f.size + carried.length ≤ 65535) :
    (f.header p (f.size + carried.length)).payload (f.encode p carried) = carried := by
  have total := toNat_ofNat_of_le fits
  have whole := f.length_encode p carried
  calc (f.header p (f.size + carried.length)).payload (f.encode p carried)
      = ((f.encode p carried).take (f.encode p carried).length).drop f.size := by
        rw [whole]
        exact congrArg (fun n => ((f.encode p carried).take n).drop f.size) total
    _ = (f.encode p carried).drop f.size := by rw [List.take_length]
    _ = carried := List.drop_left' (length_fields f p _)

/-- **A packet that was put together has the header that was chosen.** -/
theorem at_encode (fits : f.size + carried.length ≤ 65535) :
    (f.header p (f.size + carried.length)).At (f.encode p carried) := by
  obtain ⟨hversion, hlength⟩ := first_byte f.options.words
  obtain ⟨hdscp, hecn⟩ := second_byte f.dscp f.ecn
  obtain ⟨hdf, hmf, hoffset⟩ := fragment_word f.dontFragment f.moreFragments f.fragmentOffset
  have total := toNat_ofNat_of_le fits
  -- Where a field starts is computed; only the addresses have a length that has to be proved.
  constructor
  case first => exact ⟨_, byte?_field (k := 0) rfl rfl rfl, hversion, hlength⟩
  case service => exact ⟨_, byte?_field (k := 1) rfl rfl rfl, hdscp, hecn⟩
  case totalLength => exact word?_field (k := 2) rfl rfl rfl
  case identification => exact word?_field (k := 3) rfl rfl UInt16.ofNat_toNat
  case fragment =>
    exact ⟨_, word?_field (k := 4) rfl rfl rfl, hdf, hmf, congrArg (8 * ·) hoffset⟩
  case timeToLive => exact byte?_field (k := 5) rfl rfl UInt8.ofNat_toNat
  case protocol => exact byte?_field (k := 6) rfl rfl UInt8.ofNat_toNat
  case checksum => exact word?_field (k := 7) rfl rfl UInt16.ofNat_toNat
  case source =>
    exact Ipv4Address.at?_eq_some_iff.mpr (span?_field (k := 8) rfl rfl f.length_source)
  case destination =>
    refine Ipv4Address.at?_eq_some_iff.mpr (span?_field (k := 9) rfl ?_ f.length_destination)
    simp [fields, f.length_source]
  case header_le_total =>
    show f.size ≤ (UInt16.ofNat (f.size + carried.length)).toNat
    omega
  case total_le =>
    show (UInt16.ofNat (f.size + carried.length)).toNat ≤ (f.encode p carried).length
    rw [total, length_encode]

end Ipv4Fields

/-- The fields of a UDP header that a sender chooses. -/
structure UdpFields where
  sourcePort : UInt16
  destinationPort : UInt16
  checksum : UInt16

namespace UdpFields

variable (f : UdpFields) (payload : List UInt8)

/-- The datagram with a header of these fields in front of a payload. -/
def encode : List UInt8 :=
  [bytesOf 2 f.sourcePort.toNat, bytesOf 2 f.destinationPort.toNat, bytesOf 2 (8 + payload.length),
    bytesOf 2 f.checksum.toNat].flatten ++ payload

/-- The header as it is read back. -/
def header : UdpHeader where
  sourcePort := f.sourcePort
  destinationPort := f.destinationPort
  length := UInt16.ofNat (8 + payload.length)
  checksum := f.checksum

variable {f payload}

theorem length_encode : (f.encode payload).length = 8 + payload.length := by
  simp [encode]
  omega

/-- **A datagram that was put together has the header that was chosen.** -/
theorem at_encode (fits : 8 + payload.length ≤ 65535) :
    (f.header payload).At (f.encode payload) payload.length := by
  have length : (f.header payload).length.toNat = 8 + payload.length :=
    toNat_ofNat_of_le fits
  constructor
  case sourcePort => exact word?_field (k := 0) rfl rfl UInt16.ofNat_toNat
  case destinationPort => exact word?_field (k := 1) rfl rfl UInt16.ofNat_toNat
  case length => exact word?_field (k := 2) rfl rfl rfl
  case checksum => exact word?_field (k := 3) rfl rfl UInt16.ofNat_toNat
  case size_le => simp [length, UdpHeader.size]
  case length_le => rw [length, length_encode]
  case payload => simp [length, UdpHeader.size]

end UdpFields

/-- The fields of a TCP header that a sender chooses. -/
structure TcpFields where
  sourcePort : UInt16
  destinationPort : UInt16
  sequence : UInt32
  acknowledgement : UInt32
  /-- The four bits between the header length and the flags. -/
  reserved : Fin 16
  flags : UInt8
  window : UInt16
  checksum : UInt16
  urgent : UInt16
  options : HeaderOptions

namespace TcpFields

variable (f : TcpFields) (payload : List UInt8)

/-- The number of bytes of the header. -/
def size : Nat := 20 + 4 * f.options.words.val

/-- The segment with a header of these fields in front of a payload. -/
def encode : List UInt8 :=
  [bytesOf 2 f.sourcePort.toNat, bytesOf 2 f.destinationPort.toNat, bytesOf 4 f.sequence.toNat,
    bytesOf 4 f.acknowledgement.toNat, bytesOf 1 (16 * (5 + f.options.words.val) + f.reserved.val),
    bytesOf 1 f.flags.toNat, bytesOf 2 f.window.toNat, bytesOf 2 f.checksum.toNat,
    bytesOf 2 f.urgent.toNat, f.options.bytes].flatten ++ payload

/-- The header as it is read back. -/
def header : TcpHeader where
  sourcePort := f.sourcePort
  destinationPort := f.destinationPort
  window := f.window
  checksum := f.checksum
  sequence := f.sequence
  acknowledgement := f.acknowledgement

variable {f payload}

theorem length_encode : (f.encode payload).length = f.size + payload.length := by
  simp [encode, size, f.options.length_bytes]
  omega

/-- **A segment that was put together has the header that was chosen.** -/
theorem at_encode : f.header.At (f.encode payload) payload.length := by
  have hwords := f.options.words.isLt
  have hreserved := f.reserved.isLt
  have hoffset : (UInt8.ofNat (16 * (5 + f.options.words.val) + f.reserved.val)).toNat =
      16 * (5 + f.options.words.val) + f.reserved.val :=
    UInt8.toNat_ofNat_of_lt' (show _ < 256 by omega)
  have hlength : (f.encode payload).length = f.size + payload.length := length_encode
  constructor
  case sourcePort => exact word?_field (k := 0) rfl rfl UInt16.ofNat_toNat
  case destinationPort => exact word?_field (k := 1) rfl rfl UInt16.ofNat_toNat
  case sequence => exact long?_field (k := 2) rfl rfl UInt32.ofNat_toNat
  case acknowledgement => exact long?_field (k := 3) rfl rfl UInt32.ofNat_toNat
  case window => exact word?_field (k := 6) rfl rfl UInt16.ofNat_toNat
  case checksum => exact word?_field (k := 7) rfl rfl UInt16.ofNat_toNat
  case urgent => exact ⟨_, word?_field (k := 8) rfl rfl rfl⟩
  case offset =>
    refine ⟨_, byte?_field (k := 4) rfl rfl rfl, ?_, ?_, ?_⟩
    · rw [hoffset, TcpHeader.leastSize]
      omega
    · rw [hoffset, hlength, size]
      omega
    · rw [hoffset, hlength, size]
      omega

end TcpFields

/-- The fields of the header above IPv4 that a sender chooses. -/
inductive Segment
  | udp (f : UdpFields)
  | tcp (f : TcpFields)

namespace Segment

variable (payload : List UInt8)

/-- The protocol number. -/
def protocol : Segment → UInt8
  | udp _ => 17
  | tcp _ => 6

/-- The number of bytes of the header. -/
def size : Segment → Nat
  | udp _ => 8
  | tcp f => f.size

/-- The bytes with a header of these fields in front of a payload. -/
def encode : Segment → List UInt8
  | udp f => f.encode payload
  | tcp f => f.encode payload

/-- The header as it is read back. -/
def header : Segment → TransportHeader
  | udp f => .udp (f.header payload)
  | tcp f => .tcp f.header

variable {payload} {t : Segment}

theorem protocol_header : (t.header payload).protocol = t.protocol := by
  cases t <;> rfl

theorem length_encode : (t.encode payload).length = t.size + payload.length := by
  cases t with
  | udp f => exact UdpFields.length_encode
  | tcp f => exact TcpFields.length_encode

theorem at_encode (fits : t.size + payload.length ≤ 65535) :
    (t.header payload).At (t.encode payload) payload.length := by
  cases t with
  | udp f => exact .udp (UdpFields.at_encode fits)
  | tcp f => exact .tcp TcpFields.at_encode

end Segment

/-! ## Frames -/

namespace EthernetHeader

variable (h : EthernetHeader)

/-- The frame with a header in front of what it carries. -/
def encode (carried : List UInt8) : List UInt8 :=
  [h.destination.octets, h.source.octets, bytesOf 2 h.etherType.toNat].flatten ++ carried

theorem length_encode (carried : List UInt8) :
    (h.encode carried).length = size + carried.length := by
  simp [encode, h.destination.length_octets, h.source.length_octets, size]
  omega

theorem at_encode (carried : List UInt8) : h.At (h.encode carried) := by
  constructor
  case destination =>
    exact MacAddress.at?_eq_some_iff.mpr (span?_field (k := 0) rfl rfl h.destination.length_octets)
  case source =>
    refine MacAddress.at?_eq_some_iff.mpr (span?_field (k := 1) rfl ?_ h.source.length_octets)
    simp [h.destination.length_octets]
  case etherType =>
    refine word?_field (k := 2) rfl ?_ UInt16.ofNat_toNat
    simp [h.destination.length_octets, h.source.length_octets]

/-- What is carried stands behind the header. -/
theorem drop_encode (carried : List UInt8) : (h.encode carried).drop size = carried := by
  apply List.drop_left'
  simp [h.destination.length_octets, h.source.length_octets, size]

end EthernetHeader

/-- The bytes of a frame between two addresses. -/
def encodeFrame (destination source : MacAddress) (i : Ipv4Fields) (t : Segment)
    (payload : List UInt8) : List UInt8 :=
  EthernetHeader.encode { destination, source, etherType := 0x0800 }
    (i.encode t.protocol (t.encode payload))

namespace Summary

/-- **The summary of a frame that was put together shows what it was put together from.** -/
theorem ofBytes_encodeFrame (destination source : MacAddress) (i : Ipv4Fields) (t : Segment)
    (payload : List UInt8) (fits : i.size + (t.size + payload.length) ≤ 65535) :
    ofBytes (encodeFrame destination source i t payload) =
      { length := 14 + (i.size + (t.size + payload.length))
        ethernet := some { destination, source, etherType := 0x0800 }
        ipv4 := some (i.header t.protocol (i.size + (t.size + payload.length)))
        transport := some (t.header payload)
        payloadLength := some payload.length
        ending := .complete } := by
  have hlength : (t.encode payload).length = t.size + payload.length := Segment.length_encode
  have hfits : i.size + (t.encode payload).length ≤ 65535 := hlength ▸ fits
  have whole : (encodeFrame destination source i t payload).length =
      14 + (i.size + (t.size + payload.length)) := by
    rw [encodeFrame, EthernetHeader.length_encode, Ipv4Fields.length_encode, hlength]
    rfl
  have hpacket : (encodeFrame destination source i t payload).drop EthernetHeader.size =
      i.encode t.protocol (t.encode payload) := EthernetHeader.drop_encode _ _
  have hi := Ipv4Fields.at_encode (p := t.protocol) hfits
  have hpayload := Ipv4Fields.payload_encode (p := t.protocol) hfits
  have ht := Segment.at_encode (t := t) (show t.size + payload.length ≤ 65535 by omega)
  rw [← hpacket] at hi hpayload
  rw [← hpayload] at ht
  have search : Search (encodeFrame destination source i t payload) _ :=
    .complete (EthernetHeader.at_encode _ _) rfl hi Segment.protocol_header.symm ht
  rw [hlength, whole] at search
  exact search.eq.symm

/-- A segment with options in both headers, in the last fragment that there can be. -/
theorem ofBytes_encodeFrame_options :
    24 + (32 + 5) ≤ 65535 ∧
      ofBytes (encodeFrame ⟨[2, 0, 0, 0, 0, 2], rfl⟩ ⟨[2, 0, 0, 0, 0, 1], rfl⟩
        { dscp := 46, ecn := 1, identification := 0xbeef, dontFragment := false,
          moreFragments := true, fragmentOffset := 8191, timeToLive := 64, checksum := 0xabcd,
          source := ⟨[10, 0, 0, 1]⟩, destination := ⟨[10, 0, 0, 2]⟩,
          options := { words := 1, bytes := [1, 1, 1, 0] } }
        (.tcp
          { sourcePort := 80, destinationPort := 40000, sequence := 0xfffffffe,
            acknowledgement := 2000, reserved := 1, flags := 0x18, window := 512,
            checksum := 0x1122, urgent := 7,
            options := { words := 3, bytes := [1, 1, 8, 10, 0, 0, 0, 1, 0, 0, 0, 2] } })
        [71, 69, 84, 32, 47]) =
      { length := 75
        ethernet := some
          { destination := ⟨[2, 0, 0, 0, 0, 2], rfl⟩, source := ⟨[2, 0, 0, 0, 0, 1], rfl⟩,
            etherType := 0x0800 }
        ipv4 := some
          { version := 4, headerLength := 24, dscp := 46, ecn := 1, totalLength := 61,
            identification := 0xbeef, dontFragment := false, moreFragments := true,
            fragmentOffset := 65528, timeToLive := 64, protocol := 6, checksum := 0xabcd,
            source := ⟨[10, 0, 0, 1]⟩, destination := ⟨[10, 0, 0, 2]⟩ }
        transport := some (.tcp
          { sourcePort := 80, destinationPort := 40000, window := 512, checksum := 0x1122,
            sequence := 0xfffffffe, acknowledgement := 2000 })
        payloadLength := some 5
        ending := .complete } :=
  ⟨by decide, ofBytes_encodeFrame _ _ _ _ _ (by decide)⟩

/-- The bytes of a small datagram. -/
example :
    encodeFrame ⟨[2, 0, 0, 0, 0, 2], rfl⟩ ⟨[2, 0, 0, 0, 0, 1], rfl⟩
        { dscp := 0, ecn := 0, identification := 0x1234, dontFragment := true,
          moreFragments := false, fragmentOffset := 0, timeToLive := 64, checksum := 0xabcd,
          source := ⟨[10, 0, 0, 1]⟩, destination := ⟨[10, 0, 0, 2]⟩,
          options := { words := 0, bytes := [] } }
        (.udp { sourcePort := 1234, destinationPort := 53, checksum := 0 }) [0x70, 0x69] =
      [2, 0, 0, 0, 0, 2, 2, 0, 0, 0, 0, 1, 8, 0,
        0x45, 0, 0, 30, 0x12, 0x34, 0x40, 0, 64, 17, 0xab, 0xcd, 10, 0, 0, 1, 10, 0, 0, 2,
        4, 0xd2, 0, 53, 0, 10, 0, 0, 0x70, 0x69] := by
  decide

end Summary
end SoftNic
