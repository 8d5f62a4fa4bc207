import SoftNic.Proofs.Traffic

/-! # Three sets of books

A card, the device that drives it and the peer at the end of its cable all count the
same frames, each at a moment of its own: the card when a frame gets into a ring or is
refused, the device and the peer when the card has answered, or when a frame that was
taken out of a ring is about to be handed on.  The device starts again from zero when it
is closed; what is in the rings then is released, and is counted by nobody.

This module proves that the three agree whenever an operation begins or ends, up to the
frames in the rings and counted from where the device was closed last.  The entries are
pure bookkeeping (`Books.Agree`), and each operation makes one of them.
-/
namespace SoftNic

/-- What was counted since the counters stood elsewhere.  Counters wrap around, and so
does the difference. -/
def Counters.since (c c₀ : Counters) : Counters where
  txPackets := c.txPackets - c₀.txPackets
  txBytes := c.txBytes - c₀.txBytes
  txDropped := c.txDropped - c₀.txDropped
  txErrors := c.txErrors - c₀.txErrors
  rxPackets := c.rxPackets - c₀.rxPackets
  rxBytes := c.rxBytes - c₀.rxBytes
  rxDropped := c.rxDropped - c₀.rxDropped
  rxErrors := c.rxErrors - c₀.rxErrors

/-- Frames are counted twice: by their number and by their length. -/
inductive Meter
  | packets
  | bytes

namespace Meter

/-- What a frame of the given length counts. -/
def amount (u : Meter) (length : Nat) : UInt64 :=
  match u with
  | packets => 1
  | bytes => UInt64.ofNat length

/-- The counter of the frames that were sent. -/
def sent (u : Meter) (c : Counters) : UInt64 :=
  match u with
  | packets => c.txPackets
  | bytes => c.txBytes

/-- The counter of the frames that were received. -/
def received (u : Meter) (c : Counters) : UInt64 :=
  match u with
  | packets => c.rxPackets
  | bytes => c.rxBytes

/-- What a number of frames count together. -/
def total (u : Meter) : List Frame → UInt64
  | [] => 0
  | f :: fs => u.amount f.length + u.total fs

variable (u : Meter) (c c₀ : Counters) (fs gs : List Frame)

@[simp] theorem sent_since : u.sent (c.since c₀) = u.sent c - u.sent c₀ := by
  cases u <;> rfl

@[simp] theorem received_since : u.received (c.since c₀) = u.received c - u.received c₀ := by
  cases u <;> rfl

@[simp] theorem sent_sent (k : Nat) : u.sent (c.sent k) = u.sent c + u.amount k := by
  cases u <;> rfl

@[simp] theorem received_received (k : Nat) :
    u.received (c.received k) = u.received c + u.amount k := by
  cases u <;> rfl

@[simp] theorem total_nil : u.total [] = 0 := rfl

@[simp] theorem total_cons (f : Frame) : u.total (f :: fs) = u.amount f.length + u.total fs := rfl

@[simp] theorem total_append : u.total (fs ++ gs) = u.total fs + u.total gs := by
  induction fs with
  | nil => simp
  | cons f fs ih => rw [List.cons_append, total_cons, total_cons, ih, UInt64.add_assoc]

theorem total_packets : packets.total fs = UInt64.ofNat fs.length := by
  induction fs with
  | nil => rfl
  | cons f fs ih => rw [total_cons, ih, List.length_cons, UInt64.ofNat_add, UInt64.add_comm]; rfl

end Meter

/-! ## The entries -/

/-- The counters of a card, of its device and of its peer, and the frames in its
rings. -/
structure Books where
  card : Counters
  device : Counters
  peer : Counters
  tx : List Frame
  rx : List Frame

/-- What the books of the card and of the peer showed when the device was last closed, and
the number of frames that were too long for the device since then. -/
structure Marks where
  card : Counters := {}
  peer : Counters := {}
  oversized : Nat := 0

/-- A frame is offered to a device, which refuses it at once if it is too long. -/
def Marks.offer (m : Marks) (f : Frame) : Marks :=
  if Device.frameLimit < f.length then { m with oversized := m.oversized + 1 } else m

namespace Books

variable {m : Marks} {x : Books} {f : Frame} {fs : List Frame}

/-- The marks that are set when a device is closed. -/
def mark (x : Books) : Marks :=
  { card := x.card, peer := x.peer }

/-- **The books agree.**  What the peer sent is what the card received.  Since the marks,
what the device sent is what the card sent; what the card sent was received by the peer
or is in the ring, and what the card received was received by the device or is in the
ring. -/
structure Agree (m : Marks) (x : Books) : Prop where
  arrived (u : Meter) : u.received x.card = u.sent x.peer
  arrivalsDropped : x.card.rxDropped = x.peer.txDropped
  sent (u : Meter) : u.sent (x.card.since m.card) = u.sent x.device
  sendsDropped : (x.card.since m.card).txDropped = x.device.txDropped
  collected (u : Meter) : u.sent (x.card.since m.card) =
    u.received (x.peer.since m.peer) + u.total x.tx
  handed (u : Meter) : u.received (x.card.since m.card) = u.received x.device + u.total x.rx
  oversized : x.device.txErrors = UInt64.ofNat m.oversized
  cardErrors : x.card.txErrors = 0 ∧ x.card.rxErrors = 0
  deviceErrors : x.device.rxDropped = 0 ∧ x.device.rxErrors = 0

namespace Agree

/-- The device sends a frame, and the card accepts it. -/
theorem send (h : x.Agree m) (f : Frame) :
    Agree m { x with card := x.card.sent f.length, device := x.device.sent f.length,
                     tx := x.tx ++ [f] } :=
  { h with
    sent := fun u => by
      have hs := h.sent u
      simp only [Meter.sent_since, Meter.sent_sent] at hs ⊢
      grind
    collected := fun u => by
      have hs := h.collected u
      simp only [Meter.sent_since, Meter.sent_sent, Meter.total_append, Meter.total_cons,
        Meter.total_nil] at hs ⊢
      grind }

/-- The card refuses it. -/
theorem sendDropped (h : x.Agree m) :
    Agree m { x with card := x.card.sendDropped, device := x.device.sendDropped } :=
  { h with
    sendsDropped := by
      have hs := h.sendsDropped
      simp only [Counters.since, Counters.sendDropped] at hs ⊢
      grind }

/-- The device itself refuses it. -/
theorem sendFailed (h : x.Agree m) :
    Agree { m with oversized := m.oversized + 1 } { x with device := x.device.sendFailed } :=
  { h with
    oversized := by
      rw [UInt64.ofNat_add, ← h.oversized]
      rfl }

/-- The peer sends a frame, and the card accepts it. -/
theorem arrive (h : x.Agree m) (f : Frame) :
    Agree m { x with card := x.card.received f.length, peer := x.peer.sent f.length,
                     rx := x.rx ++ [f] } :=
  { h with
    arrived := fun u => by rw [Meter.received_received, Meter.sent_sent, h.arrived u]
    handed := fun u => by
      have hs := h.handed u
      simp only [Meter.received_since, Meter.received_received, Meter.total_append,
        Meter.total_cons, Meter.total_nil] at hs ⊢
      grind }

/-- The card refuses it. -/
theorem arrivalDropped (h : x.Agree m) :
    Agree m { x with card := x.card.receiveDropped, peer := x.peer.sendDropped } :=
  { h with
    arrivalsDropped := congrArg (· + 1) h.arrivalsDropped }

/-- The peer collects the oldest frame. -/
theorem collect (h : x.Agree m) (hx : x.tx = f :: fs) :
    Agree m { x with peer := x.peer.received f.length, tx := fs } :=
  { h with
    collected := fun u => by
      have hs := h.collected u
      rw [hx] at hs
      simp only [Meter.received_since, Meter.received_received, Meter.total_cons] at hs ⊢
      grind }

/-- The device hands the oldest frame to its stack. -/
theorem hand (h : x.Agree m) (hx : x.rx = f :: fs) :
    Agree m { x with device := x.device.received f.length, rx := fs } :=
  { h with
    handed := fun u => by
      have hs := h.handed u
      rw [hx] at hs
      simp only [Meter.received_received, Meter.total_cons] at hs ⊢
      grind }

/-- The peer finds nothing to collect.  That is no business of the others. -/
theorem receiveFailed (h : x.Agree m) : Agree m { x with peer := x.peer.receiveFailed } :=
  { h with }

/-- The device is closed: its counters start again, and the rings are empty. -/
theorem close (h : x.Agree m) :
    Agree x.mark { x with device := Counters.zero, tx := [], rx := [] } :=
  { h with
    sent := fun u => by simp [mark]; cases u <;> rfl
    sendsDropped := by simp [mark, Counters.since]; rfl
    collected := fun u => by simp [mark]
    handed := fun u => by simp [mark]; cases u <;> rfl
    oversized := rfl
    deviceErrors := ⟨rfl, rfl⟩ }

/-- Books without an entry agree. -/
theorem blank : Agree {} ⟨{}, {}, {}, [], []⟩ where
  arrived u := by cases u <;> rfl
  arrivalsDropped := rfl
  sent u := by cases u <;> rfl
  sendsDropped := rfl
  collected u := by cases u <;> rfl
  handed u := by cases u <;> rfl
  oversized := rfl
  cardErrors := ⟨rfl, rfl⟩
  deviceErrors := ⟨rfl, rfl⟩

end Agree
end Books

namespace Bench

variable {d : Handle Device} {p : Handle Peer} {n : Handle Nic} {b b' : Bench} {m m' : Marks}
  {f : Frame}

/-- The books that are kept of a card. -/
def books (d : Handle Device) (p : Handle Peer) (n : Handle Nic) (b : Bench) : Books where
  card := (b.nic n).counters
  device := (b.device d).counters
  peer := (b.peer p).counters
  tx := (b.nic n).tx.toList
  rx := (b.nic n).rx.toList

/-! ## Runs -/

/-- A frame that is about to be handed to the stack was counted. -/
def counted (b : Bench) (d : Handle Device) (f : Frame) : Bench :=
  (b.recordDevice d (.frameSeen Direction.receive.word f)).countDevice d (·.received f.length)

/-- A poll of a device calls the stack, if it runs a pass. -/
def CallsStack {γ : Type} (d : Handle Device) (sink : Sink γ) (x : Bench × γ) (f : Frame)
    (y : Bench × γ) : Prop :=
  (x.1.context (x.1.device d).context).phase = .scheduled ∧ ∃ b,
    Hands (·.take (x.1.device d).nic .receive) (counting d sink) (x.1.device d).weight
      ((x.1.recordDevice d .polled).startPass (x.1.device d).context, x.2) f (b, y.2) ∧
    y.1 = b.counted d f

/-- A poll of a peer calls the wire. -/
def CallsWire {γ : Type} (p : Handle Peer) (budget : Nat) (wire : Sink γ) (x : Bench × γ)
    (f : Frame) (y : Bench × γ) : Prop :=
  ∃ b, Hands (·.take (x.1.peer p).nic .transmit) (collecting p wire) budget x f (b, y.2) ∧
    y.1 = b.countPeer p (·.received f.length)

/-- **What may happen to a card that has one device and one peer**, and the marks that
are made in the course of it.  The stack of the device and the wire of the peer may do all
of this themselves when they are called, and a run may also stand where they are.  They keep
the marks in their own memory. -/
inductive BooksRun (d : Handle Device) (p : Handle Peer) (n : Handle Nic) :
    Bench → Marks → Bench → Marks → Prop
  | done (b : Bench) (m : Marks) : BooksRun d p n b m b m
  | trans {b b' b'' : Bench} {m m' m'' : Marks} :
    BooksRun d p n b m b' m' → BooksRun d p n b' m' b'' m'' → BooksRun d p n b m b'' m''
  | opened (b : Bench) (m : Marks) : BooksRun d p n b m (b.openDevice d) m
  /-- The device is closed, which comes to an end unless its pass is running. -/
  | closed (b : Bench) (m : Marks) (hok : (b.closeDevice d).2 = .ok ()) :
    BooksRun d p n b m (b.closeDevice d).1 ((b.closeDevice d).1.books d p n).mark
  | send (b : Bench) (m : Marks) (f : Frame) : BooksRun d p n b m (b.send d f).1 (m.offer f)
  | poll {γ : Type} (b : Bench) (m : Marks) (stack : Sink (γ × Marks)) (g : γ)
    (calls : ∀ f y, CallsStack d stack (b, g, m) f y →
      BooksRun d p n y.1 y.2.2 (stack f y).1 (stack f y).2.2) :
    BooksRun d p n b m (pollDevice d stack (b, g, m)).1.1 (pollDevice d stack (b, g, m)).1.2.2
  | inStack {γ : Type} (b : Bench) (m : Marks) (stack : Sink (γ × Marks)) (g : γ)
    (calls : ∀ f y, CallsStack d stack (b, g, m) f y →
      BooksRun d p n y.1 y.2.2 (stack f y).1 (stack f y).2.2)
    (f : Frame) (y : Bench × γ × Marks) (h : CallsStack d stack (b, g, m) f y) :
    BooksRun d p n b m y.1 y.2.2
  | peerSend (b : Bench) (m : Marks) (f : Frame) : BooksRun d p n b m (b.peerTransmit p f).1 m
  | peerPoll {γ : Type} (b : Bench) (m : Marks) (budget : Nat) (wire : Sink (γ × Marks)) (g : γ)
    (calls : ∀ f y, CallsWire p budget wire (b, g, m) f y →
      BooksRun d p n y.1 y.2.2 (wire f y).1 (wire f y).2.2) :
    BooksRun d p n b m (pollPeer p budget wire (b, g, m)).1.1
      (pollPeer p budget wire (b, g, m)).1.2.2
  | inWire {γ : Type} (b : Bench) (m : Marks) (budget : Nat) (wire : Sink (γ × Marks)) (g : γ)
    (calls : ∀ f y, CallsWire p budget wire (b, g, m) f y →
      BooksRun d p n y.1 y.2.2 (wire f y).1 (wire f y).2.2)
    (f : Frame) (y : Bench × γ × Marks) (h : CallsWire p budget wire (b, g, m) f y) :
    BooksRun d p n b m y.1 y.2.2
  /-- Something happens elsewhere on the bench. -/
  | elsewhere (b b' : Bench) (m : Marks) (hn : b'.nic n = b.nic n)
    (hd : b'.device d = b.device d) (hp : b'.peer p = b.peer p) : BooksRun d p n b m b' m

/-! ## The invariant -/

/-- The device and the peer are at the card, the books agree, and a card that is down
holds no frames: opening the device releases none that were counted. -/
structure Accounted (d : Handle Device) (p : Handle Peer) (n : Handle Nic) (m : Marks)
    (b : Bench) : Prop where
  device : (b.device d).nic = n
  peer : (b.peer p).nic = n
  agree : (b.books d p n).Agree m
  down (i : Direction) : (b.nic n).gate.isReady = false → ((b.nic n).ring i).toList = []

/-- An operation that makes no entry. -/
theorem Accounted.transfer (h : Accounted d p n m b) (hd : b'.device d = b.device d)
    (hp : b'.peer p = b.peer p) (hc : (b'.nic n).counters = (b.nic n).counters)
    (hr : ∀ i, ((b'.nic n).ring i).toList = ((b.nic n).ring i).toList)
    (hg : (b'.nic n).gate.isReady = false → (b.nic n).gate.isReady = false) :
    Accounted d p n m b' where
  device := by rw [hd, h.device]
  peer := by rw [hp, h.peer]
  agree := by
    have hx : b'.books d p n = b.books d p n := by
      simp only [books, hd, hp, hc]
      rw [show (b'.nic n).tx.toList = _ from hr .transmit,
        show (b'.nic n).rx.toList = _ from hr .receive]
      rfl
    rw [hx]
    exact h.agree
  down i hno := by rw [hr i, h.down i (hg hno)]

theorem Accounted.elsewhere (h : Accounted d p n m b) (hn : b'.nic n = b.nic n)
    (hd : b'.device d = b.device d) (hp : b'.peer p = b.peer p) : Accounted d p n m b' :=
  h.transfer hd hp (by rw [hn]) (fun i => by rw [hn]) (by rw [hn]; exact id)

theorem Accounted.interrupted (h : Accounted d p n m b) (hi : Interrupted n b b') :
    Accounted d p n m b' := by
  obtain ⟨armed, hn⟩ := hi.card
  refine h.transfer (hi.atCard.device_eq d) (hi.atCard.peer_eq p) (by rw [hn])
    (fun i => by rw [hi.ring_eq i]) ?_
  rw [Gate.isReady, hi.phase_eq, Gate.isReady]
  exact id

/-! ## Up and down -/

theorem Accounted.openDevice (h : Accounted d p n m b) : Accounted d p n m (b.openDevice d) := by
  have ha : AtCard n b (b.openDevice d) := atCard_openDevice h.device
  obtain ⟨hc, hg, hr⟩ := b.openDevice_cards d n
  exact h.transfer (ha.device_eq d) (ha.peer_eq p) hc (fun i => hr i (h.down i)) hg

/-- Closing a device makes the marks. -/
theorem Accounted.closeDevice (h : Accounted d p n m b) (hok : (b.closeDevice d).2 = .ok ()) :
    Accounted d p n ((b.closeDevice d).1.books d p n).mark (b.closeDevice d).1 := by
  have ha : Attached d n (b.device d).context (b.context (b.device d).context).request b :=
    ⟨h.device, rfl, rfl⟩
  by_cases hp : (b.context (b.device d).context).phase = .draining
  · rw [closeDevice_of_draining ha hp] at hok
    cases hok
  · obtain ⟨b', he, ha', hn, -, -, hpeers⟩ := closeDevice_eq ha hp
    have hx : (b'.countDevice d fun _ => Counters.zero).books d p n =
        { b.books d p n with device := Counters.zero, tx := [], rx := [] } := by
      rw [books, nic_countDevice, hn, device_countDevice_self, peer_countDevice, Bench.peer, hpeers,
        ← Bench.peer]
      simp only [Nic.closed, Nic.emptied, Ring.toList_reset]
      rfl
    rw [he]
    refine ⟨?_, ?_, ?_, fun i _ => ?_⟩
    · rw [device_countDevice_self]
      exact ha'.nic_eq
    · rw [peer_countDevice, Bench.peer, hpeers, ← Bench.peer, h.peer]
    · rw [hx]
      exact h.agree.close
    · rw [nic_countDevice, hn]
      exact (b.nic n).toList_ring_emptied i

/-! ## Frames -/

theorem Accounted.send (h : Accounted d p n m b) (f : Frame) :
    Accounted d p n (m.offer f) (b.send d f).1 := by
  have hp : (b.send d f).1.peer p = b.peer p := (send_beside h.device f).2.1 p
  have hpn : ((b.send d f).1.peer p).nic = n := by rw [hp, h.peer]
  rcases send_outcome h.device f with
    ⟨hlong, -, hnics, hd⟩ | ⟨hle, -, hready, ⟨tx, htx, hn⟩, hd⟩ | ⟨hle, -, hn, hd⟩
  · have hn : (b.send d f).1.nic n = b.nic n := by rw [nic, hnics, ← nic]
    rw [Marks.offer, if_pos hlong]
    refine ⟨by rw [hd]; exact h.device, hpn, ?_, by rw [hn]; exact h.down⟩
    rw [books, hn, hd, hp]
    exact h.agree.sendFailed
  · rw [Marks.offer, if_neg (Nat.not_lt.mpr hle)]
    refine ⟨by rw [hd]; exact h.device, hpn, ?_, fun i hno => ?_⟩
    · rw [books, hn, hd, hp]
      dsimp only
      rw [htx]
      exact h.agree.send f
    · rw [hn] at hno
      exact absurd (hready.symm.trans hno) (by decide)
  · rw [Marks.offer, if_neg (Nat.not_lt.mpr hle)]
    refine ⟨by rw [hd]; exact h.device, hpn, ?_, ?_⟩
    · rw [books, hn, hd, hp]
      exact h.agree.sendDropped
    · rw [hn]
      exact h.down

theorem Accounted.peerTransmit (h : Accounted d p n m b) (f : Frame) :
    Accounted d p n m (b.peerTransmit p f).1 := by
  have hd : (b.peerTransmit p f).1.device d = b.device d := (peerTransmit_beside h.peer f).2.1 d
  have hdn : ((b.peerTransmit p f).1.device d).nic = n := by rw [hd, h.device]
  rcases peerTransmit_outcome h.peer f with ⟨-, hready, ⟨rx, armed, hrx, hn⟩, hp⟩ | ⟨-, hn, hp⟩
  · refine ⟨hdn, by rw [hp]; exact h.peer, ?_, fun i hno => ?_⟩
    · rw [books, hn, hd, hp]
      dsimp only
      rw [hrx]
      exact h.agree.arrive f
    · rw [hn] at hno
      exact absurd (hready.symm.trans hno) (by decide)
  · refine ⟨hdn, by rw [hp]; exact h.peer, ?_, ?_⟩
    · rw [books, hn, hd, hp]
      exact h.agree.arrivalDropped
    · rw [hn]
      exact h.down

/-- A frame that is taken for the stack is in no ring, and is counted before anything
else happens. -/
theorem Accounted.hand (h : Accounted d p n m b) (hf : (b.take n .receive).2 = some f) :
    Accounted d p n m ((b.take n .receive).1.counted d f) := by
  have ha := (onlyCard_take b n .receive).atCard
  obtain ⟨r, hn, hr⟩ := take_of_some hf
  have hd : ((b.take n .receive).1.counted d f).device d =
      { b.device d with counters := (b.device d).counters.received f.length } := by
    rw [counted, device_countDevice_self, ← ha.device_eq d]
    rfl
  have hp : ((b.take n .receive).1.counted d f).peer p = b.peer p := ha.peer_eq p
  have hn' : ((b.take n .receive).1.counted d f).nic n = (b.nic n).setRing .receive r := hn
  refine ⟨by rw [hd]; exact h.device, by rw [hp, h.peer], ?_, fun i hno => ?_⟩
  · rw [books, hn', hd, hp]
    exact h.agree.hand hr
  · rw [hn'] at hno
    -- The card is not down, since there was a frame in the ring.
    exact nomatch (h.down .receive hno).symm.trans hr

/-- So is one that is taken for the wire. -/
theorem Accounted.collect (h : Accounted d p n m b) (hf : (b.take n .transmit).2 = some f) :
    Accounted d p n m ((b.take n .transmit).1.countPeer p (·.received f.length)) := by
  have ha := (onlyCard_take b n .transmit).atCard
  obtain ⟨r, hn, hr⟩ := take_of_some hf
  refine ⟨?_, ?_, ?_, fun i hno => ?_⟩
  · rw [device_countPeer, ha.device_eq, h.device]
  · rw [nic_peer_countPeer, ha.peer_eq, h.peer]
  · rw [books, nic_countPeer, hn, device_countPeer, ha.device_eq, peer_countPeer_self, ha.peer_eq]
    exact h.agree.collect hr
  · rw [nic_countPeer, hn] at hno
    exact nomatch (h.down .transmit hno).symm.trans hr

theorem Accounted.takeNone {i : Direction} (h : Accounted d p n m b)
    (hf : (b.take n i).2 = none) : Accounted d p n m (b.take n i).1 := by
  rw [take_of_none hf]
  exact h

/-- Finding nothing is counted by the peer alone. -/
theorem Accounted.foundNothing (h : Accounted d p n m b) :
    Accounted d p n m ((b.record (.peer p .foundNothing)).countPeer p Counters.receiveFailed) := by
  refine ⟨h.device, ?_, ?_, h.down⟩
  · rw [nic_peer_countPeer]
    exact h.peer
  · rw [books, peer_countPeer_self]
    exact h.agree.receiveFailed

/-! ## Polls -/

section Polls

variable {γ : Type} {stack wire : Sink (γ × Marks)} {g : γ} {budget : Nat} {y : Bench × γ × Marks}

/-- The books stand, with the marks that a sink carries along. -/
def Stand (d : Handle Device) (p : Handle Peer) (n : Handle Nic) (y : Bench × γ × Marks) : Prop :=
  Accounted d p n y.2.2 y.1

theorem Accounted.callsStack (h : Accounted d p n m b)
    (hcalls : ∀ f y, CallsStack d stack (b, g, m) f y → Stand d p n y → Stand d p n (stack f y))
    (hy : CallsStack d stack (b, g, m) f y) : Stand d p n y := by
  obtain rfl := h.device
  obtain ⟨hp, b', hb', hy⟩ := hy
  have hq : Accounted d p (b.device d).nic y.2.2 (b'.counted d f) :=
    hb'.invariant (P := Stand d p (b.device d).nic)
      (Q := fun f y => Accounted d p (b.device d).nic y.2.2 (y.1.counted d f))
      (fun b g f hb hf => Accounted.hand hb hf)
      (fun f y hy hq => hcalls f (y.1.counted d f, y.2) ⟨hp, y.1, hy, rfl⟩ hq)
      (h.elsewhere rfl rfl rfl)
  rw [Stand, hy]
  exact hq

theorem Accounted.poll (h : Accounted d p n m b)
    (hcalls : ∀ f y, CallsStack d stack (b, g, m) f y → Stand d p n y → Stand d p n (stack f y)) :
    Stand d p n (pollDevice d stack (b, g, m)).1 := by
  obtain rfl := h.device
  have ha : Attached d (b.device d).nic (b.device d).context
      (b.context (b.device d).context).request b := ⟨rfl, rfl, rfl⟩
  rcases pollDevice_cases ha stack (g, m) with ⟨hp, y, k, hy, hr⟩ | ⟨-, e, hr⟩ | ⟨-, e, hr⟩
  · have hpump : Stand d p (b.device d).nic (pump (·.take (b.device d).nic .receive)
        (counting d stack) (b.device d).weight
        ((b.recordDevice d .polled).startPass (b.device d).context, g, m)).1 :=
      pump_of_hands (P := Stand d p (b.device d).nic)
        (Q := fun f y => Accounted d p (b.device d).nic y.2.2 (y.1.counted d f))
        (fun b g hb hf => Accounted.takeNone hb hf) (fun b g f hb hf => Accounted.hand hb hf) _
        (fun f y hy hq => hcalls f (y.1.counted d f, y.2) ⟨hp, y.1, hy, rfl⟩ hq)
        (h.elsewhere rfl rfl rfl)
    rw [hy] at hpump
    rw [hr]
    exact Accounted.interrupted hpump (interrupted_endPass ..)
  · rw [hr]
    exact h.elsewhere rfl rfl rfl
  · rw [hr]
    exact h.elsewhere rfl rfl rfl

theorem Accounted.callsWire (h : Accounted d p n m b)
    (hcalls : ∀ f y, CallsWire p budget wire (b, g, m) f y → Stand d p n y →
      Stand d p n (wire f y))
    (hy : CallsWire p budget wire (b, g, m) f y) : Stand d p n y := by
  obtain rfl := h.peer
  obtain ⟨b', hb', hy⟩ := hy
  have hq : Accounted d p (b.peer p).nic y.2.2 (b'.countPeer p (·.received f.length)) :=
    hb'.invariant (P := Stand d p (b.peer p).nic)
      (Q := fun f y => Accounted d p (b.peer p).nic y.2.2 (y.1.countPeer p (·.received f.length)))
      (fun b g f hb hf => Accounted.collect hb hf)
      (fun f y hy hq => hcalls f (y.1.countPeer p (·.received f.length), y.2) ⟨y.1, hy, rfl⟩ hq) h
  rw [Stand, hy]
  exact hq

theorem Accounted.peerPoll (h : Accounted d p n m b)
    (hcalls : ∀ f y, CallsWire p budget wire (b, g, m) f y → Stand d p n y →
      Stand d p n (wire f y)) :
    Stand d p n (pollPeer p budget wire (b, g, m)).1 := by
  obtain rfl := h.peer
  have hdrain : Stand d p (b.peer p).nic
      (drain (b.peer p).nic budget (collecting p wire) (b, g, m)).1 :=
    pump_of_hands (P := Stand d p (b.peer p).nic)
      (Q := fun f y => Accounted d p (b.peer p).nic y.2.2 (y.1.countPeer p (·.received f.length)))
      (fun b g hb hf => Accounted.takeNone hb hf) (fun b g f hb hf => Accounted.collect hb hf) _
      (fun f y hy hq => hcalls f (y.1.countPeer p (·.received f.length), y.2) ⟨y.1, hy, rfl⟩ hq) h
  unfold pollPeer
  dsimp only
  split
  · exact Accounted.foundNothing hdrain
  · exact hdrain

end Polls

/-! ## Agreement -/

/-- Whatever happens to the card, its books go on to agree. -/
theorem BooksRun.accounted (hr : BooksRun d p n b m b' m') (h : Accounted d p n m b) :
    Accounted d p n m' b' := by
  -- The calls of stack and wire are runs themselves, so the induction covers them too.
  induction hr with
  | done b m => exact h
  | trans _ _ ih₁ ih₂ => exact ih₂ (ih₁ h)
  | opened b m => exact h.openDevice
  | closed b m hok => exact h.closeDevice hok
  | send b m f => exact h.send f
  | poll b m stack g _ ih => exact h.poll ih
  | inStack b m stack g _ f y hy ih => exact h.callsStack ih hy
  | peerSend b m f => exact h.peerTransmit f
  | peerPoll b m budget wire g _ ih => exact h.peerPoll ih
  | inWire b m budget wire g _ f y hy ih => exact h.callsWire ih hy
  | elsewhere b b' m hn hd hp => exact h.elsewhere hn hd hp

/-- A card with its device and its peer, all of which have counted nothing. -/
structure NewBooks (d : Handle Device) (p : Handle Peer) (n : Handle Nic) (b : Bench) : Prop where
  device : (b.device d).nic = n
  peer : (b.peer p).nic = n
  card_counters : (b.nic n).counters = {}
  device_counters : (b.device d).counters = {}
  peer_counters : (b.peer p).counters = {}
  rings (i : Direction) : ((b.nic n).ring i).toList = []

theorem NewBooks.accounted (h : NewBooks d p n b) : Accounted d p n {} b where
  device := h.device
  peer := h.peer
  agree := by
    have hx : b.books d p n = ⟨{}, {}, {}, [], []⟩ := by
      rw [books, h.card_counters, h.device_counters, h.peer_counters]
      rw [show (b.nic n).tx.toList = [] from h.rings .transmit,
        show (b.nic n).rx.toList = [] from h.rings .receive]
    rw [hx]
    exact .blank
  down i _ := h.rings i

theorem counters_of_buildDevice {x : Settings} {s : Handle Signal}
    (h : b.buildDevice x s = .ok (d, b')) : (b'.device d).counters = {} := by
  unfold buildDevice at h
  split at h
  · cases h
  · split at h
    · cases h
    · dsimp only at h
      split at h
      · cases h
      · next made hm =>
        unfold newDevice at hm
        split at hm
        · cases hm
        · obtain ⟨rfl, rfl⟩ := Prod.mk.inj ((Except.ok.inj hm).trans (Except.ok.inj h))
          exact congrArg Device.counters (Store.get_add_self ..)

/-- A device that is built with a card of its own, and a peer that is attached to that
card, have new books. -/
theorem newBooks_of_buildDevice {b₀ b₁ : Bench} {x : Settings} {s : Handle Signal}
    (hb : b₀.buildDevice x s = .ok (d, b₁))
    (hp : b₁.attachPeer (b₁.device d).nic = (p, b)) : NewBooks d p (b₁.device d).nic b := by
  obtain ⟨n, c, ha, -, hx, -⟩ := buildDevice_spec hb
  obtain ⟨t, r, ht, hr, hn⟩ := Nic.ofSizes_eq_ok_iff.mp hx
  have hc := counters_of_buildDevice hb
  rw [ha.nic_eq] at hp ⊢
  obtain ⟨rfl, rfl⟩ := Prod.mk.inj hp
  refine ⟨ha.nic_eq, ?_, ?_, hc, ?_, fun i => ?_⟩
  · exact congrArg Peer.nic (Store.get_add_self ..)
  · show (((b₁.addSignal (.flag false)).2.setHook n _).nic n).counters = {}
    rw [nic_setHook]
    show (b₁.nic n).counters = {}
    rw [hn]
  · exact congrArg Peer.counters (Store.get_add_self ..)
  · show ((((b₁.addSignal (.flag false)).2.setHook n _).nic n).ring i).toList = []
    rw [nic_setHook]
    show ((b₁.nic n).ring i).toList = []
    exact (Nic.new_of_ofSizes hx).2.2.2 i

/-- **The three sets of books agree.**  Take a card with new books, and let anything happen
to it.  What the card received is what its peer sent; and since the device was last closed,
what the card sent is what the device sent, what the peer has not received of it is in the
transmit ring, and what the device has not received of the card's is in the receive ring.  The
errors of the device are the frames that are too long, of which the card sees nothing; and
there are no others. -/
theorem books_agree {b₀ : Bench} (h : NewBooks d p n b₀) (hr : BooksRun d p n b₀ {} b m) :
    ((b.nic n).counters.rxPackets = (b.peer p).counters.txPackets ∧
      (b.nic n).counters.rxBytes = (b.peer p).counters.txBytes ∧
      (b.nic n).counters.rxDropped = (b.peer p).counters.txDropped) ∧
    (((b.nic n).counters.since m.card).txPackets = (b.device d).counters.txPackets ∧
      ((b.nic n).counters.since m.card).txBytes = (b.device d).counters.txBytes ∧
      ((b.nic n).counters.since m.card).txDropped = (b.device d).counters.txDropped) ∧
    (((b.nic n).counters.since m.card).txPackets =
        ((b.peer p).counters.since m.peer).rxPackets + UInt64.ofNat (b.nic n).tx.count ∧
      ((b.nic n).counters.since m.card).txBytes = ((b.peer p).counters.since m.peer).rxBytes +
        Meter.bytes.total (b.nic n).tx.toList) ∧
    (((b.nic n).counters.since m.card).rxPackets =
        (b.device d).counters.rxPackets + UInt64.ofNat (b.nic n).rx.count ∧
      ((b.nic n).counters.since m.card).rxBytes = (b.device d).counters.rxBytes +
        Meter.bytes.total (b.nic n).rx.toList) ∧
    ((b.device d).counters.txErrors = UInt64.ofNat m.oversized ∧
      ∀ f, Device.frameLimit < f.length → (b.send d f).1.nics = b.nics) ∧
    (b.nic n).counters.txErrors = 0 ∧ (b.nic n).counters.rxErrors = 0 ∧
    (b.device d).counters.rxDropped = 0 ∧ (b.device d).counters.rxErrors = 0 := by
  have hb := hr.accounted h.accounted
  have ha := hb.agree
  rw [Ring.count_eq, Ring.count_eq, ← Meter.total_packets, ← Meter.total_packets]
  refine ⟨⟨ha.arrived .packets, ha.arrived .bytes, ha.arrivalsDropped⟩,
    ⟨ha.sent .packets, ha.sent .bytes, ha.sendsDropped⟩,
    ⟨ha.collected .packets, ha.collected .bytes⟩, ⟨ha.handed .packets, ha.handed .bytes⟩,
    ⟨ha.oversized, fun f hf => ?_⟩, ha.cardErrors.1, ha.cardErrors.2, ha.deviceErrors.1,
    ha.deviceErrors.2⟩
  rcases send_outcome hb.device f with ⟨-, -, hn, -⟩ | ⟨hle, -⟩ | ⟨hle, -⟩
  · exact hn
  · exact absurd hf (Nat.not_lt.mpr hle)
  · exact absurd hf (Nat.not_lt.mpr hle)

/-- A new card with rings of the least size, a device that drives it, and a peer. -/
def newLine : Bench :=
  let b := (((default : Bench).addNic default).2.addSignal (.flag false)).2
  ((b.addDevice .standard ⟨0⟩ ⟨0⟩).2.attachPeer ⟨0⟩).2

theorem newBooks_newLine : NewBooks ⟨0⟩ ⟨0⟩ ⟨0⟩ newLine where
  device := by decide +kernel
  peer := by decide +kernel
  card_counters := by decide +kernel
  device_counters := by decide +kernel
  peer_counters := by decide +kernel
  rings i := by cases i <;> decide +kernel

/-- A frame is sent; the wire loops it back from inside the poll of the peer, and the stack
sends it again from inside the poll of the device.  Then the device is closed and opened,
which releases it.  Of the frames that are offered to the device then, it refuses one. -/
theorem books_agree_newLine :
    ∃ b m, NewBooks ⟨0⟩ ⟨0⟩ ⟨0⟩ newLine ∧ BooksRun ⟨0⟩ ⟨0⟩ ⟨0⟩ newLine {} b m ∧
      m.card.txPackets = 2 ∧ m.peer.rxPackets = 1 ∧ (b.device ⟨0⟩).counters.txPackets = 1 ∧
      ((b.nic ⟨0⟩).counters.since m.card).txPackets = (b.device ⟨0⟩).counters.txPackets ∧
      ((b.nic ⟨0⟩).counters.since m.card).txPackets =
        ((b.peer ⟨0⟩).counters.since m.peer).rxPackets + UInt64.ofNat (b.nic ⟨0⟩).tx.count ∧
      (b.device ⟨0⟩).counters.txErrors = 1 := by
  let again : Sink (Unit × Marks) := fun f y => ((y.1.send ⟨0⟩ f).1, y.2.1, y.2.2.offer f)
  have run : BooksRun ⟨0⟩ ⟨0⟩ ⟨0⟩ newLine {} _ _ :=
    (((((((BooksRun.opened _ _).trans (.send _ _ ⟨[1, 2, 3]⟩)).trans
      (.peerPoll _ _ 1 (loopback ⟨0⟩) () fun f y _ => .peerSend y.1 y.2.2 f)).trans
      (.poll _ _ again () fun f y _ => .send y.1 y.2.2 f)).trans
      (.closed _ _ (closeDevice_spec ⟨rfl, rfl, rfl⟩ (by decide +kernel)).1)).trans
      (.opened _ _)).trans (.send _ _ ⟨List.replicate 1515 0⟩)).trans (.send _ _ ⟨[1, 2, 3]⟩)
  obtain ⟨-, ⟨hsent, -, -⟩, ⟨hcollected, -⟩, -, ⟨hlong, -⟩, -⟩ := books_agree newBooks_newLine run
  exact ⟨_, _, newBooks_newLine, run, by decide +kernel, by decide +kernel, by decide +kernel,
    hsent, hcollected, hlong.trans (by decide +kernel)⟩

end Bench
end SoftNic
