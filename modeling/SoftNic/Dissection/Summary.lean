import SoftNic.Dissection.Header

/-! # Frame summaries

A summary tells which headers were found in a frame, from the outside in, and
why the search ended.  The search goes on from one header to the next only
when the outer header names the inner one and leaves enough bytes for it.
-/
namespace SoftNic

/-- Why the search for headers ended. -/
inductive Ending
  /-- All headers and the payload were found. -/
  | complete
  /-- The frame ended inside a header. -/
  | truncated
  /-- The frame does not carry IPv4. -/
  | notIpv4
  /-- The packet carries neither UDP nor TCP. -/
  | otherTransport
  deriving DecidableEq, Repr

namespace Ending

/-- The name under which reports show an ending. -/
def name : Ending → String
  | complete => "Complete"
  | truncated => "Truncated"
  | notIpv4 => "NotIpv4"
  | otherTransport => "OtherTransport"

end Ending

/-- The headers found in one frame. -/
structure Summary where
  /-- The number of bytes of the frame. -/
  length : Nat
  ethernet : Option EthernetHeader := none
  ipv4 : Option Ipv4Header := none
  transport : Option TransportHeader := none
  payloadLength : Option Nat := none
  ending : Ending := .truncated
  deriving DecidableEq, Repr

namespace Summary

/-- Add the transport header of a packet, given the payload of the packet and
its protocol number. -/
def withTransport (s : Summary) (protocol : UInt8) (payload : List UInt8) : Summary :=
  if protocol = Ipv4Header.udp then
    match UdpHeader.read? payload with
    | none => s
    | some (h, n) =>
      { s with transport := some (.udp h), payloadLength := some n, ending := .complete }
  else if protocol = Ipv4Header.tcp then
    match TcpHeader.read? payload with
    | none => s
    | some (h, n) =>
      { s with transport := some (.tcp h), payloadLength := some n, ending := .complete }
  else { s with ending := .otherTransport }

/-- Add the headers of the packet that a frame carries. -/
def withPacket (s : Summary) (packet : List UInt8) : Summary :=
  match Ipv4Header.read? packet with
  | none => s
  | some h => { s with ipv4 := some h }.withTransport h.protocol (h.payload packet)

/-- The summary of a frame. -/
def ofBytes (bs : List UInt8) : Summary :=
  let s : Summary := { length := bs.length }
  match EthernetHeader.read? bs with
  | none => s
  | some h =>
    let s := { s with ethernet := some h }
    if h.etherType = EthernetHeader.ipv4Type then s.withPacket (bs.drop EthernetHeader.size)
    else { s with ending := .notIpv4 }

/-- A word as four capital hexadecimal digits behind the mark `0x`. -/
def wordText (w : UInt16) : String :=
  "0x" ++ String.ofList (Text.hexWord .upper w)

/-- The part of the line that is about the Ethernet header. -/
def ethernetText (h : EthernetHeader) : String :=
  s!" | {h.source.toText} -> {h.destination.toText} type {wordText h.etherType}"

/-- The part of the line that is about the IPv4 header. -/
def ipv4Text (h : Ipv4Header) : String :=
  s!" | IPv{h.version.toNat} hl {h.headerLength} tot {h.totalLength.toNat} "
    ++ s!"id {wordText h.identification} off {h.fragmentOffset} ttl {h.timeToLive.toNat} "
    ++ s!"proto {h.protocol.toNat} csum {wordText h.checksum} "
    ++ s!"{h.source.toText} -> {h.destination.toText}"

/-- The part of the line that is about the transport header. -/
def transportText : TransportHeader → String
  | .udp h =>
    s!" | UDP {h.sourcePort.toNat} -> {h.destinationPort.toNat} len {h.length.toNat} "
      ++ s!"csum {wordText h.checksum}"
  | .tcp h =>
    s!" | TCP {h.sourcePort.toNat} -> {h.destinationPort.toNat} win {h.window.toNat} "
      ++ s!"csum {wordText h.checksum} seq {h.sequence.toNat} ack {h.acknowledgement.toNat}"

/-- The end of the line. -/
def endingText : Ending → Option Nat → String
  | .complete, some n => s!" | payload {n}"
  | .complete, none => ""
  | .truncated, _ => " | truncated"
  | .notIpv4, _ => " | non-IP"
  | .otherTransport, _ => " | non-UDP/TCP"

/-- A summary in one line. -/
def toText (s : Summary) : String :=
  s!"len {s.length}"
    ++ (s.ethernet.map ethernetText).getD ""
    ++ (s.ipv4.map ipv4Text).getD ""
    ++ (s.transport.map transportText).getD ""
    ++ endingText s.ending s.payloadLength

end Summary
end SoftNic
