import SoftNic.Bench.Wire
import SoftNic.Proofs.RunLoop

/-! # Frames under way

A device that sends and a peer that sends do the same thing from two sides: they
hand a frame to the card, and count what the card answers.  This module tells what
either comes to, for the card and for whoever counts.
-/
namespace SoftNic
namespace Bench

variable {d : Handle Device} {n m : Handle Nic} {p q : Handle Peer} {b b' b'' : Bench}

/-! ## The card's answer -/

/-- Nothing differs between two benches but one card, signals and contexts. -/
structure AtCard (n : Handle Nic) (b b' : Bench) : Prop where
  nic : ∀ m, m ≠ n → b'.nic m = b.nic m
  devices : b'.devices = b.devices
  peers : b'.peers = b.peers
  endpoints : b'.endpoints = b.endpoints

namespace AtCard

theorem trans (h : AtCard n b b') (k : AtCard n b' b'') : AtCard n b b'' where
  nic m hm := (k.nic m hm).trans (h.nic m hm)
  devices := k.devices.trans h.devices
  peers := k.peers.trans h.peers
  endpoints := k.endpoints.trans h.endpoints

theorem device_eq (h : AtCard n b b') (x : Handle Device) : b'.device x = b.device x := by
  rw [device, h.devices, ← device]

theorem peer_eq (h : AtCard n b b') (x : Handle Peer) : b'.peer x = b.peer x := by
  rw [peer, h.peers, ← peer]

theorem endpoint_eq (h : AtCard n b b') (x : Handle Endpoint) : b'.endpoint x = b.endpoint x := by
  rw [endpoint, h.endpoints, ← endpoint]

end AtCard

theorem OnlyCard.atCard (h : OnlyCard n b b') : AtCard n b b' :=
  ⟨h.nic, h.devices, h.peers, h.endpoints⟩

theorem Interrupted.atCard (h : Interrupted n b b') : AtCard n b b' :=
  ⟨h.nic, h.devices, h.peers, h.endpoints⟩

theorem atCard_transmit (b : Bench) (n : Handle Nic) (f : Frame) :
    AtCard n b (b.transmit n f).1 :=
  (onlyCard_accept b n .transmit f).atCard.trans (b.transmit_eq n f).2.atCard

theorem atCard_deliver (b : Bench) (n : Handle Nic) (f : Frame) :
    AtCard n b (b.deliver n f).1 :=
  (onlyCard_accept b n .receive f).atCard.trans (b.deliver_eq n f).2.atCard

theorem atCard_cardStep (m : Handle Nic) (b : Bench) (op : CardOp) :
    AtCard m b (cardStep m b op) := by
  cases op with
  | setUp => exact (onlyCard_setUp b m).atCard
  | bringUp => exact (onlyCard_bringUp b m).atCard
  | shutDown => exact (onlyCard_shutDown b m).atCard
  | tearDown => exact (onlyCard_tearDown b m).atCard
  | rearm => exact (interrupted_rearm b m).atCard
  | mask => exact (onlyCard_mask b m).atCard
  | removeHandler => exact (onlyCard_removeHandler b m).atCard
  | transmit f => exact atCard_transmit b m f
  | deliver f => exact atCard_deliver b m f
  | take i => exact (onlyCard_take b m i).atCard

/-- Opening a device changes only its card. -/
theorem atCard_openDevice (hd : (b.device d).nic = n) : AtCard n b (b.openDevice d) := by
  have h₁ : AtCard n b ((b.recordDevice d .opened).setUp n) :=
    (((OnlyCard.refl n b).record _).trans (onlyCard_setUp _ n)).atCard
  have h₂ := (interrupted_enableContext n ((b.recordDevice d .opened).setUp n)
    (b.device d).context).1.atCard
  unfold openDevice
  dsimp only
  rw [hd]
  exact ((h₁.trans h₂).trans (onlyCard_installHandler _ n _).atCard).trans
    (onlyCard_bringUp _ n).atCard

/-- Opening a device releases only what is in the rings of a card that is down. -/
theorem openDevice_cards (b : Bench) (d : Handle Device) (m : Handle Nic) :
    ((b.openDevice d).nic m).counters = (b.nic m).counters ∧
      (((b.openDevice d).nic m).gate.isReady = false → (b.nic m).gate.isReady = false) ∧
      ∀ i, ((b.nic m).gate.isReady = false → ((b.nic m).ring i).toList = []) →
        (((b.openDevice d).nic m).ring i).toList = ((b.nic m).ring i).toList := by
  have ha : Attached d (b.device d).nic (b.device d).context
      (b.context (b.device d).context).request b := ⟨rfl, rfl, rfl⟩
  by_cases hm : m = (b.device d).nic
  · have hx := (openDevice_spec ha).2.1
    rw [← hm] at hx
    rw [hx]
    by_cases hr : (b.nic m).gate.isReady = true
    · rw [Nic.opened_of_ready hr]
      exact ⟨rfl, id, fun i _ => by cases i <;> rfl⟩
    · have hr' : (b.nic m).gate.isReady = false := by simpa using hr
      rw [Nic.opened_of_not_ready hr']
      refine ⟨rfl, fun _ => hr', fun i hi => ?_⟩
      rw [hi hr']
      exact (b.nic m).toList_ring_emptied i
  · rw [(atCard_openDevice rfl).nic m hm]
    exact ⟨rfl, id, fun _ _ => rfl⟩

/-- The end of a pass touches no more than an interrupt does. -/
theorem interrupted_endPass (b : Bench) (c : Handle PollContext) (n : Handle Nic)
    (handled budget : Nat) : Interrupted n b (b.endPass c n handled budget) := by
  unfold endPass
  dsimp only
  split
  · have hi : Interrupted n b (b.setPhase c .idle) :=
      .of_nics rfl (fun k => request_setPhase b c k _) rfl rfl rfl
    exact (hi.trans (interrupted_rearm _ n)).trans (interrupted_record n _ _)
  · exact (interrupted_request n b c).trans (interrupted_record n _ _)

/-- A frame to be sent is put behind the others in the transmit ring and counted, or
it is refused and only counted. -/
theorem transmit_outcome (b : Bench) (n : Handle Nic) (f : Frame) :
    ((b.transmit n f).2 = .ok () ∧ (b.nic n).gate.isReady = true ∧
      ∃ tx, tx.toList = (b.nic n).tx.toList ++ [f] ∧ (b.transmit n f).1.nic n =
        { b.nic n with tx, counters := (b.nic n).counters.sent f.length }) ∨
    ((∃ r, (b.transmit n f).2 = .error r) ∧ (b.transmit n f).1.nic n =
      { b.nic n with counters := (b.nic n).counters.sendDropped }) := by
  have hn : (b.transmit n f).1.nic n = (b.accept n .transmit f).1.nic n := by
    rcases b.transmit_cases n f with ht | ⟨t, -, ht⟩
    · rw [ht]
    · rw [ht]
      rfl
  rw [(b.transmit_eq n f).1, hn]
  rcases b.accept_cases n .transmit f with ⟨-, ha, hx⟩ | ⟨-, -, ha, hx⟩ | ⟨hr, ha, r, hq, hx⟩
  · exact Or.inr ⟨⟨_, ha⟩, hx⟩
  · exact Or.inr ⟨⟨_, ha⟩, hx⟩
  · exact Or.inl ⟨ha, hr, r, Ring.toList_of_enqueue? hq, hx⟩

/-- So is a frame from the wire in the receive ring.  If the card accepts it, it may
also interrupt. -/
theorem deliver_outcome (b : Bench) (n : Handle Nic) (f : Frame) :
    ((b.deliver n f).2 = .ok () ∧ (b.nic n).gate.isReady = true ∧
      ∃ rx armed, rx.toList = (b.nic n).rx.toList ++ [f] ∧ (b.deliver n f).1.nic n =
        { b.nic n with rx, gate := { (b.nic n).gate with armed },
                       counters := (b.nic n).counters.received f.length }) ∨
    ((∃ r, (b.deliver n f).2 = .error r) ∧ (b.deliver n f).1.nic n =
      { b.nic n with counters := (b.nic n).counters.receiveDropped }) := by
  obtain ⟨hr, hi⟩ := b.deliver_eq n f
  rw [hr]
  have refused : (b.accept n .receive f).2 ≠ .ok () →
      (b.deliver n f).1.nic n = (b.accept n .receive f).1.nic n := fun hno => by
    rcases b.deliver_cases n f with ⟨-, hd, -⟩ | ⟨-, hok, -⟩
    · rw [hd]
    · exact absurd hok hno
  rcases b.accept_cases n .receive f with ⟨-, ha, hx⟩ | ⟨-, -, ha, hx⟩ | ⟨hready, ha, r, hq, hx⟩
  · exact Or.inr ⟨⟨_, ha⟩, (refused (by rw [ha]; exact nofun)).trans hx⟩
  · exact Or.inr ⟨⟨_, ha⟩, (refused (by rw [ha]; exact nofun)).trans hx⟩
  · obtain ⟨armed, hc⟩ := hi.card
    refine Or.inl ⟨ha, hready, r, armed, Ring.toList_of_enqueue? hq, ?_⟩
    rw [hc, hx]
    rfl

/-! ## New peers -/

/-- What a new peer brings to a bench: a signal of its own, itself, and a hook for its
card. -/
structure Plugs (n : Handle Nic) (p : Handle Peer) (s : Handle Signal) (b b' : Bench) : Prop where
  signals : b.signals.add (.flag false) = (s, b'.signals)
  peers : b.peers.add { nic := n, signal := s } = (p, b'.peers)
  nics : b'.nics = b.nics.modify n fun x => { x with hook := some s }
  contexts : b'.contexts = b.contexts
  devices : b'.devices = b.devices
  endpoints : b'.endpoints = b.endpoints
  journal : b'.journal = b.journal

theorem plugs_attachPeer (b : Bench) (n : Handle Nic) :
    ∃ s, Plugs n (b.attachPeer n).1 s b (b.attachPeer n).2 :=
  ⟨_, rfl, rfl, rfl, rfl, rfl, rfl, rfl⟩

namespace Plugs

variable {s : Handle Signal}

theorem peer_eq (h : Plugs n p s b b') : b'.peer p = { nic := n, signal := s } := by
  obtain ⟨hp, hs⟩ := Prod.mk.inj h.peers
  rw [peer, ← hp, ← hs]
  exact b.peers.get_add_self _

theorem nic_eq (h : Plugs n p s b b') : b'.nic n = { b.nic n with hook := some s } := by
  rw [nic, h.nics]
  exact b.nics.get_modify_self n _

theorem nic_of_ne (h : Plugs n p s b b') (hm : m ≠ n) : b'.nic m = b.nic m := by
  rw [nic, h.nics]
  exact b.nics.get_modify_of_ne hm _

end Plugs

/-! ## Sending -/

@[simp] theorem nic_countPeer (b : Bench) (p : Handle Peer) (g : Counters → Counters)
    (m : Handle Nic) : (b.countPeer p g).nic m = b.nic m := rfl

@[simp] theorem device_countPeer (b : Bench) (p : Handle Peer) (g : Counters → Counters)
    (x : Handle Device) : (b.countPeer p g).device x = b.device x := rfl

@[simp] theorem peer_countPeer_self (b : Bench) (p : Handle Peer) (g : Counters → Counters) :
    (b.countPeer p g).peer p = { b.peer p with counters := g (b.peer p).counters } :=
  b.peers.get_modify_self p _

@[simp] theorem nic_peer_countPeer (b : Bench) (p : Handle Peer) (g : Counters → Counters)
    (q : Handle Peer) : ((b.countPeer p g).peer q).nic = (b.peer q).nic := by
  by_cases hq : q = p
  · rw [hq, peer_countPeer_self]
  · exact congrArg Peer.nic (b.peers.get_modify_of_ne hq _)

theorem peer_countPeer_of_ne (h : q ≠ p) (b : Bench) (g : Counters → Counters) :
    (b.countPeer p g).peer q = b.peer q :=
  b.peers.get_modify_of_ne h _

@[simp] theorem peer_countDevice (b : Bench) (d : Handle Device) (g : Counters → Counters)
    (q : Handle Peer) : (b.countDevice d g).peer q = b.peer q := rfl

@[simp] theorem device_countDevice_self (b : Bench) (d : Handle Device)
    (g : Counters → Counters) :
    (b.countDevice d g).device d = { b.device d with counters := g (b.device d).counters } :=
  b.devices.get_modify_self d _

/-- A device that sends a frame: the frame is too long for it, or the card answers
and the device counts the answer. -/
theorem send_cases (hd : (b.device d).nic = n) (f : Frame) :
    (Device.frameLimit < f.length ∧ ∃ x y, b.send d f =
      (((b.record x).record y).countDevice d Counters.sendFailed,
        .error (.frameTooLong f.length))) ∨
    (f.length ≤ Device.frameLimit ∧ ∃ x,
      (((b.record x).transmit n f).2 = .ok () ∧ b.send d f =
        (((b.record x).transmit n f).1.countDevice d (·.sent f.length), .ok ())) ∨
      ∃ r, ((b.record x).transmit n f).2 = .error r ∧ b.send d f =
        (((b.record x).transmit n f).1.countDevice d Counters.sendDropped, .error r.reason)) := by
  have hn : ((b.recordDevice d (.frameSeen Direction.transmit.word f)).device d).nic = n := hd
  unfold send
  dsimp only
  rw [hn]
  split
  · next hlong => exact Or.inl ⟨hlong, _, _, rfl⟩
  · next hlong =>
    refine Or.inr ⟨Nat.le_of_not_lt hlong, .device (b.device d).name.text
      (.frameSeen Direction.transmit.word f), ?_⟩
    split
    · next b' ht =>
      rw [recordDevice] at ht
      rw [ht]
      exact Or.inl ⟨rfl, rfl⟩
    · next b' r ht =>
      rw [recordDevice] at ht
      rw [ht]
      exact Or.inr ⟨r, rfl, rfl⟩

/-- What a device that sends comes to for the card and for its counters.  The card
never sees a frame that is too long. -/
theorem send_outcome (hd : (b.device d).nic = n) (f : Frame) :
    (Device.frameLimit < f.length ∧ (b.send d f).2 = .error (.frameTooLong f.length) ∧
      (b.send d f).1.nics = b.nics ∧ (b.send d f).1.device d =
        { b.device d with counters := (b.device d).counters.sendFailed }) ∨
    (f.length ≤ Device.frameLimit ∧ (b.send d f).2 = .ok () ∧ (b.nic n).gate.isReady = true ∧
      (∃ tx, tx.toList = (b.nic n).tx.toList ++ [f] ∧ (b.send d f).1.nic n =
        { b.nic n with tx, counters := (b.nic n).counters.sent f.length }) ∧
      (b.send d f).1.device d =
        { b.device d with counters := (b.device d).counters.sent f.length }) ∨
    (f.length ≤ Device.frameLimit ∧ (∃ r, (b.send d f).2 = .error r) ∧ (b.send d f).1.nic n =
        { b.nic n with counters := (b.nic n).counters.sendDropped } ∧
      (b.send d f).1.device d =
        { b.device d with counters := (b.device d).counters.sendDropped }) := by
  rcases send_cases hd f with ⟨hlong, x, y, hs⟩ | ⟨hle, x, ⟨hok, hs⟩ | ⟨r, hr, hs⟩⟩
  · rw [hs]
    exact Or.inl ⟨hlong, rfl, rfl, device_countDevice_self ..⟩
  · have hdev := (atCard_transmit (b.record x) n f).device_eq d
    rw [hs]
    rcases (b.record x).transmit_outcome n f with ⟨-, hready, htx⟩ | ⟨⟨r, hr⟩, -⟩
    · refine Or.inr (Or.inl ⟨hle, rfl, hready, htx, ?_⟩)
      dsimp only
      rw [device_countDevice_self, hdev]
      rfl
    · rw [hok] at hr
      cases hr
  · have hdev := (atCard_transmit (b.record x) n f).device_eq d
    rw [hs]
    rcases (b.record x).transmit_outcome n f with ⟨hok, -⟩ | ⟨-, hn⟩
    · rw [hr] at hok
      cases hok
    · refine Or.inr (Or.inr ⟨hle, ⟨_, rfl⟩, hn, ?_⟩)
      dsimp only
      rw [device_countDevice_self, hdev]
      rfl

/-- A device that sends touches no other card, no peer and no endpoint. -/
theorem send_beside (hd : (b.device d).nic = n) (f : Frame) :
    (∀ m, m ≠ n → (b.send d f).1.nic m = b.nic m) ∧
      (∀ q, (b.send d f).1.peer q = b.peer q) ∧
      ∀ x, (b.send d f).1.endpoint x = b.endpoint x := by
  rcases send_cases hd f with ⟨-, x, y, hs⟩ | ⟨-, x, ⟨-, hs⟩ | ⟨r, -, hs⟩⟩
  · rw [hs]
    exact ⟨fun _ _ => rfl, fun _ => rfl, fun _ => rfl⟩
  · rw [hs]
    have ht := atCard_transmit (b.record x) n f
    exact ⟨ht.nic, ht.peer_eq, ht.endpoint_eq⟩
  · rw [hs]
    have ht := atCard_transmit (b.record x) n f
    exact ⟨ht.nic, ht.peer_eq, ht.endpoint_eq⟩

/-- A peer that sends a frame counts what the card answers. -/
theorem peerTransmit_cases (hp : (b.peer p).nic = n) (f : Frame) :
    ((b.deliver n f).2 = .ok () ∧ b.peerTransmit p f =
      ((b.deliver n f).1.countPeer p (·.sent f.length), .ok ())) ∨
    ∃ r x, (b.deliver n f).2 = .error r ∧ b.peerTransmit p f =
      (((b.deliver n f).1.countPeer p Counters.sendDropped).record x, .error r.reason) := by
  unfold peerTransmit
  rw [hp]
  split
  · next b' hd => exact Or.inl ⟨by rw [hd], by rw [hd]⟩
  · next b' r hd => exact Or.inr ⟨r, _, by rw [hd], by rw [hd]⟩

/-- What a peer that sends comes to for the card and for its counters. -/
theorem peerTransmit_outcome (hp : (b.peer p).nic = n) (f : Frame) :
    ((b.peerTransmit p f).2 = .ok () ∧ (b.nic n).gate.isReady = true ∧
      (∃ rx armed, rx.toList = (b.nic n).rx.toList ++ [f] ∧ (b.peerTransmit p f).1.nic n =
        { b.nic n with rx, gate := { (b.nic n).gate with armed },
                       counters := (b.nic n).counters.received f.length }) ∧
      (b.peerTransmit p f).1.peer p =
        { b.peer p with counters := (b.peer p).counters.sent f.length }) ∨
    ((∃ r, (b.peerTransmit p f).2 = .error r) ∧ (b.peerTransmit p f).1.nic n =
        { b.nic n with counters := (b.nic n).counters.receiveDropped } ∧
      (b.peerTransmit p f).1.peer p =
        { b.peer p with counters := (b.peer p).counters.sendDropped }) := by
  have hpeer := (atCard_deliver b n f).peer_eq p
  rcases peerTransmit_cases hp f with ⟨hok, hs⟩ | ⟨r, x, hr, hs⟩
  · rw [hs]
    rcases b.deliver_outcome n f with ⟨-, hready, hrx⟩ | ⟨⟨r, hr⟩, -⟩
    · refine Or.inl ⟨rfl, hready, hrx, ?_⟩
      dsimp only
      rw [peer_countPeer_self, hpeer]
    · rw [hok] at hr
      cases hr
  · rw [hs]
    rcases b.deliver_outcome n f with ⟨hok, -⟩ | ⟨-, hn⟩
    · rw [hr] at hok
      cases hok
    · refine Or.inr ⟨⟨_, rfl⟩, hn, ?_⟩
      show ((b.deliver n f).1.countPeer p Counters.sendDropped).peer p = _
      rw [peer_countPeer_self, hpeer]

/-- A peer that sends touches no other card, no device and no endpoint. -/
theorem peerTransmit_beside (hp : (b.peer p).nic = n) (f : Frame) :
    (∀ m, m ≠ n → (b.peerTransmit p f).1.nic m = b.nic m) ∧
      (∀ x, (b.peerTransmit p f).1.device x = b.device x) ∧
      (∀ x, (b.peerTransmit p f).1.endpoint x = b.endpoint x) ∧
      ∀ q, q ≠ p → (b.peerTransmit p f).1.peer q = b.peer q := by
  have hd := atCard_deliver b n f
  rcases peerTransmit_cases hp f with ⟨-, hs⟩ | ⟨r, x, -, hs⟩
  · rw [hs]
    exact ⟨hd.nic, hd.device_eq, hd.endpoint_eq, fun q hq =>
      (peer_countPeer_of_ne hq _ _).trans (hd.peer_eq q)⟩
  · rw [hs]
    exact ⟨hd.nic, hd.device_eq, hd.endpoint_eq, fun q hq =>
      (peer_countPeer_of_ne hq _ _).trans (hd.peer_eq q)⟩

end Bench
end SoftNic
