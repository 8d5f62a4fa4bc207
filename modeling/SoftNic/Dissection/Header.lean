import SoftNic.Dissection.Field
import SoftNic.MacAddress

/-! # Protocol headers

The headers that are told apart in a frame: Ethernet, IPv4, UDP and TCP.  Each
is read from the beginning of a byte string, or not at all when the bytes are
too few for it.  The IPv4 reader takes the header length as declared: it must
lie within the declared total length, and that within the bytes at hand, but
neither the version nor the least length of an IPv4 header is looked at.
Checksums are reported and not verified.
-/
namespace SoftNic

/-- The header in front of every frame. -/
structure EthernetHeader where
  destination : MacAddress
  source : MacAddress
  etherType : UInt16
  deriving DecidableEq, Repr

/-- Four octets. -/
structure Ipv4Address where
  octets : List UInt8
  deriving DecidableEq, Repr

/-- The header of an IPv4 packet. -/
structure Ipv4Header where
  version : UInt8
  /-- In bytes. -/
  headerLength : Nat
  dscp : UInt8
  ecn : UInt8
  /-- Bytes of header and payload together. -/
  totalLength : UInt16
  identification : UInt16
  dontFragment : Bool
  moreFragments : Bool
  /-- In bytes. -/
  fragmentOffset : Nat
  timeToLive : UInt8
  protocol : UInt8
  checksum : UInt16
  source : Ipv4Address
  destination : Ipv4Address
  deriving DecidableEq, Repr

/-- The header of a UDP datagram. -/
structure UdpHeader where
  sourcePort : UInt16
  destinationPort : UInt16
  /-- Bytes of header and payload together. -/
  length : UInt16
  checksum : UInt16
  deriving DecidableEq, Repr

/-- The header of a TCP segment. -/
structure TcpHeader where
  sourcePort : UInt16
  destinationPort : UInt16
  window : UInt16
  checksum : UInt16
  sequence : UInt32
  acknowledgement : UInt32
  deriving DecidableEq, Repr

/-- The header above IPv4. -/
inductive TransportHeader
  | udp (header : UdpHeader)
  | tcp (header : TcpHeader)
  deriving DecidableEq, Repr

open Dissection

/-- The hardware address at a position. -/
def MacAddress.at? (bs : List UInt8) (start : Nat) : Option MacAddress :=
  (span? bs start 6).bind MacAddress.ofOctets?

namespace EthernetHeader

/-- The number of bytes of the header. -/
def size : Nat := 14

/-- The type of a frame that carries an IPv4 packet. -/
def ipv4Type : UInt16 := 0x0800

/-- Read the header of a frame. -/
def read? (bs : List UInt8) : Option EthernetHeader := do
  let destination ← MacAddress.at? bs 0
  let source ← MacAddress.at? bs 6
  let etherType ← word? bs 12
  return { destination, source, etherType }

end EthernetHeader

namespace Ipv4Address

/-- The address at a position. -/
def at? (bs : List UInt8) (start : Nat) : Option Ipv4Address :=
  (span? bs start 4).map Ipv4Address.mk

/-- An address as decimal octets with dots between them. -/
def toText (a : Ipv4Address) : String :=
  ".".intercalate (a.octets.map fun b => toString b.toNat)

end Ipv4Address

namespace Ipv4Header

/-- The protocol number of UDP. -/
def udp : UInt8 := 17

/-- The protocol number of TCP. -/
def tcp : UInt8 := 6

/-- Read the header of a packet.  The declared lengths must fit inside each
other and inside the bytes at hand. -/
def read? (bs : List UInt8) : Option Ipv4Header := do
  let versionAndLength ← byte? bs 0
  let service ← byte? bs 1
  let totalLength ← word? bs 2
  let identification ← word? bs 4
  let fragment ← word? bs 6
  let timeToLive ← byte? bs 8
  let protocol ← byte? bs 9
  let checksum ← word? bs 10
  let source ← Ipv4Address.at? bs 12
  let destination ← Ipv4Address.at? bs 16
  let headerLength := 4 * (versionAndLength.toNat % 16)
  guard (headerLength ≤ totalLength.toNat ∧ totalLength.toNat ≤ bs.length)
  return {
    version := versionAndLength >>> 4
    headerLength
    dscp := service >>> 2
    ecn := service &&& 3
    totalLength
    identification
    dontFragment := fragment &&& 0x4000 != 0
    moreFragments := fragment &&& 0x2000 != 0
    fragmentOffset := 8 * (fragment.toNat % 8192)
    timeToLive
    protocol
    checksum
    source
    destination }

/-- The bytes of a packet between its header and its declared end. -/
def payload (h : Ipv4Header) (bs : List UInt8) : List UInt8 :=
  (bs.take h.totalLength.toNat).drop h.headerLength

end Ipv4Header

namespace UdpHeader

/-- The number of bytes of the header. -/
def size : Nat := 8

/-- Read the header of a datagram.  The second part is the number of payload
bytes that it declares. -/
def read? (bs : List UInt8) : Option (UdpHeader × Nat) := do
  let sourcePort ← word? bs 0
  let destinationPort ← word? bs 2
  let length ← word? bs 4
  let checksum ← word? bs 6
  guard (size ≤ length.toNat ∧ length.toNat ≤ bs.length)
  return ({ sourcePort, destinationPort, length, checksum }, length.toNat - size)

end UdpHeader

namespace TcpHeader

/-- The least number of bytes of the header. -/
def leastSize : Nat := 20

/-- Read the header of a segment.  The second part is the number of bytes
behind the header and its options. -/
def read? (bs : List UInt8) : Option (TcpHeader × Nat) := do
  let sourcePort ← word? bs 0
  let destinationPort ← word? bs 2
  let sequence ← long? bs 4
  let acknowledgement ← long? bs 8
  let offset ← byte? bs 12
  let window ← word? bs 14
  let checksum ← word? bs 16
  let _urgent ← word? bs 18
  let headerLength := 4 * (offset.toNat / 16)
  guard (leastSize ≤ headerLength ∧ headerLength ≤ bs.length)
  return ({ sourcePort, destinationPort, window, checksum, sequence, acknowledgement },
    bs.length - headerLength)

end TcpHeader

namespace TransportHeader

/-- The protocol number of the header. -/
def protocol : TransportHeader → UInt8
  | udp _ => Ipv4Header.udp
  | tcp _ => Ipv4Header.tcp

end TransportHeader
end SoftNic
