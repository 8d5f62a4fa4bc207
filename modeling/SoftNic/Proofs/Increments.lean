import Mathlib.Algebra.GroupWithZero.Nat
import SoftNic.Parts

/-! # What counters grow by

Several frames are counted one by one, with other things counted in between.  Since
counters add up and wrap around, only the total matters: each entry adds something to the
counters, and what is added can be collected in any order.
-/
namespace SoftNic
namespace Counters

/-- Counters that have grown. -/
def plus (c d : Counters) : Counters where
  txPackets := c.txPackets + d.txPackets
  txBytes := c.txBytes + d.txBytes
  txDropped := c.txDropped + d.txDropped
  txErrors := c.txErrors + d.txErrors
  rxPackets := c.rxPackets + d.rxPackets
  rxBytes := c.rxBytes + d.rxBytes
  rxDropped := c.rxDropped + d.rxDropped
  rxErrors := c.rxErrors + d.rxErrors

/-- What is counted when frames are sent. -/
def ofSent (fs : List Frame) : Counters :=
  { txPackets := UInt64.ofNat fs.length
    txBytes := UInt64.ofNat (fs.map Frame.length).sum }

/-- What is counted when frames are received. -/
def ofReceived (fs : List Frame) : Counters :=
  { rxPackets := UInt64.ofNat fs.length
    rxBytes := UInt64.ofNat (fs.map Frame.length).sum }

/-- What is counted when frames to be sent are refused. -/
def ofSendDropped (k : Nat) : Counters :=
  { txDropped := UInt64.ofNat k }

/-- What is counted when arriving frames are refused. -/
def ofReceiveDropped (k : Nat) : Counters :=
  { rxDropped := UInt64.ofNat k }

/-- What is counted when receptions were announced and did not happen. -/
def ofReceiveFailed (k : Nat) : Counters :=
  { rxErrors := UInt64.ofNat k }

variable (c d e : Counters) (f : Frame) (fs gs : List Frame) (j k : Nat)

theorem plus_assoc : (c.plus d).plus e = c.plus (d.plus e) := by
  simp only [plus, UInt64.add_assoc]

theorem plus_comm : c.plus d = d.plus c := by
  simp only [plus, UInt64.add_comm]

theorem plus_plus_plus_comm (a : Counters) :
    (a.plus c).plus (d.plus e) = (a.plus d).plus (c.plus e) := by
  rw [plus_assoc, ← c.plus_assoc, c.plus_comm d, d.plus_assoc, ← a.plus_assoc]

@[simp] theorem plus_zero : c.plus zero = c := by
  simp only [plus, zero, UInt64.add_zero]

@[simp] theorem zero_plus : zero.plus c = c := by
  rw [plus_comm, plus_zero]

theorem sent_eq_plus : c.sent f.length = c.plus (ofSent [f]) := by
  simp [sent, plus, ofSent]

theorem received_eq_plus : c.received f.length = c.plus (ofReceived [f]) := by
  simp [received, plus, ofReceived]

theorem sendDropped_eq_plus : c.sendDropped = c.plus (ofSendDropped 1) := by
  simp [sendDropped, plus, ofSendDropped]

theorem receiveDropped_eq_plus : c.receiveDropped = c.plus (ofReceiveDropped 1) := by
  simp [receiveDropped, plus, ofReceiveDropped]

theorem receiveFailed_eq_plus : c.receiveFailed = c.plus (ofReceiveFailed 1) := by
  simp [receiveFailed, plus, ofReceiveFailed]

@[simp] theorem ofSent_nil : ofSent [] = zero := rfl
@[simp] theorem ofReceived_nil : ofReceived [] = zero := rfl
@[simp] theorem ofSendDropped_zero : ofSendDropped 0 = zero := rfl
@[simp] theorem ofReceiveFailed_zero : ofReceiveFailed 0 = zero := rfl
@[simp] theorem ofReceiveDropped_zero : ofReceiveDropped 0 = zero := rfl

theorem ofSent_append : ofSent (fs ++ gs) = (ofSent fs).plus (ofSent gs) := by
  simp [ofSent, plus, UInt64.ofNat_add]

theorem ofReceived_append : ofReceived (fs ++ gs) = (ofReceived fs).plus (ofReceived gs) := by
  simp [ofReceived, plus, UInt64.ofNat_add]

theorem ofSendDropped_add : ofSendDropped (j + k) = (ofSendDropped j).plus (ofSendDropped k) := by
  simp [ofSendDropped, plus, UInt64.ofNat_add]

theorem ofReceiveDropped_add :
    ofReceiveDropped (j + k) = (ofReceiveDropped j).plus (ofReceiveDropped k) := by
  simp [ofReceiveDropped, plus, UInt64.ofNat_add]

end Counters

/-! ## Parts that count -/

/-- A device that has counted something. -/
def Device.plus (x : Device) (c : Counters) : Device :=
  { x with counters := x.counters.plus c }

@[simp] theorem Device.plus_zero (x : Device) : x.plus .zero = x := by
  rw [plus, Counters.plus_zero]

theorem Device.plus_plus (x : Device) (c d : Counters) : (x.plus c).plus d = x.plus (c.plus d) := by
  simp only [plus, Counters.plus_assoc]

/-- A far end that has counted something. -/
def Peer.plus (x : Peer) (c : Counters) : Peer :=
  { x with counters := x.counters.plus c }

@[simp] theorem Peer.plus_zero (x : Peer) : x.plus .zero = x := by
  rw [plus, Counters.plus_zero]

theorem Peer.plus_plus (x : Peer) (c d : Counters) : (x.plus c).plus d = x.plus (c.plus d) := by
  simp only [plus, Counters.plus_assoc]

end SoftNic
