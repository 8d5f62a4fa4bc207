import SoftNic.Bench.Endpoint
import SoftNic.Proofs.Traffic

/-! # Admission

A card takes a frame exactly if it is ready and the ring for the frame has room
(`Nic.Admits`).  Otherwise it hands the frame back with the reason, and all that is
left of the attempt is one more refused frame in its counters and, if the ring was
full, a line in the log (`Bench.Refused`): no signal is raised and no handler runs.

Two kinds of senders stand on top of that: devices, which bring frames to the transmit
ring, and peers, which bring them to the receive ring.  Each asks the card once, passes
its answer on, and counts every frame under exactly one of three headings
(`Counters.Reported`).  A device has a limit of its own besides: a frame beyond it is
not shown to the card.  A peer has none.
-/
namespace SoftNic

namespace Nic

/-- A card takes a frame: it is ready, and the ring of that direction has room.  One
slot of a ring always stays vacant. -/
def Admits (x : Nic) (i : Direction) : Prop :=
  x.gate.isReady = true ∧ (x.ring i).toList.length < (x.ring i).capacity - 1

instance (x : Nic) (i : Direction) : Decidable (x.Admits i) :=
  inferInstanceAs (Decidable (_ ∧ _))

/-- Why a card takes no frame.  That it is not ready comes before its ring being
full. -/
def refusal (x : Nic) : Refusal :=
  if x.gate.isReady then .ringFull else .notReady

theorem refusal_of_ready {x : Nic} (h : x.gate.isReady = true) : x.refusal = .ringFull :=
  if_pos h

theorem refusal_of_not_ready {x : Nic} (h : x.gate.isReady = false) : x.refusal = .notReady :=
  if_neg (by simp [h])

theorem not_admits_of_not_ready {x : Nic} (h : x.gate.isReady = false) (i : Direction) :
    ¬ x.Admits i :=
  fun ha => nomatch h.symm.trans ha.1

/-- A ready card takes a frame unless its ring refuses it. -/
theorem admits_iff_of_ready {x : Nic} (h : x.gate.isReady = true) (i : Direction) (f : Frame) :
    x.Admits i ↔ (x.ring i).enqueue? f ≠ none := by
  have hlt := (x.ring i).length_toList_lt
  rw [Admits, and_iff_right h, ne_eq, Ring.enqueue?_eq_none_iff]
  omega

end Nic

/-- What became of a frame that was to be sent. -/
inductive Outcome
  | sent
  | dropped
  /-- The frame was unfit to be sent. -/
  | failed
  deriving DecidableEq

namespace Outcome

/-- The outcome that an answer stands for. -/
def of : Except Refusal Unit → Outcome
  | .ok () => .sent
  | .error (.frameTooLong _) => .failed
  | .error _ => .dropped

/-- The counter of an outcome. -/
def counter : Outcome → Counters → UInt64
  | .sent, c => c.txPackets
  | .dropped, c => c.txDropped
  | .failed, c => c.txErrors

end Outcome

namespace Counters

/-- A sender counts a frame that was answered: once, under the outcome of the answer.
What the sender receives is counted elsewhere. -/
structure Reported (f : Frame) (answer : Except Refusal Unit) (c c' : Counters) : Prop where
  outcome : ∀ o : Outcome, o.counter c' = o.counter c + if o = .of answer then 1 else 0
  bytes : c'.txBytes = c.txBytes + if .of answer = Outcome.sent then UInt64.ofNat f.length else 0
  received : c'.rxPackets = c.rxPackets ∧ c'.rxBytes = c.rxBytes ∧ c'.rxDropped = c.rxDropped ∧
    c'.rxErrors = c.rxErrors

theorem reported_sent (f : Frame) (c : Counters) : Reported f (.ok ()) c (c.sent f.length) where
  outcome o := by
    cases o
    · rfl
    · exact (UInt64.add_zero _).symm
    · exact (UInt64.add_zero _).symm
  bytes := rfl
  received := ⟨rfl, rfl, rfl, rfl⟩

theorem reported_dropped (f : Frame) {r : Refusal} (h : .of (.error r) = Outcome.dropped)
    (c : Counters) : Reported f (.error r) c c.sendDropped where
  outcome o := by
    rw [h]
    cases o
    · exact (UInt64.add_zero _).symm
    · rfl
    · exact (UInt64.add_zero _).symm
  bytes := by
    rw [h]
    exact (UInt64.add_zero _).symm
  received := ⟨rfl, rfl, rfl, rfl⟩

theorem reported_failed (f : Frame) (k : Nat) (c : Counters) :
    Reported f (.error (.frameTooLong k)) c c.sendFailed where
  outcome o := by
    cases o
    · exact (UInt64.add_zero _).symm
    · exact (UInt64.add_zero _).symm
    · rfl
  bytes := (UInt64.add_zero _).symm
  received := ⟨rfl, rfl, rfl, rfl⟩

end Counters

namespace Bench

variable {d : Handle Device} {n : Handle Nic} {p : Handle Peer} {f : Frame} {b b' : Bench}

/-! ## At the card -/

/-- A card refused a frame: it counted that, and a full ring was written down.  Nothing
else happened anywhere. -/
structure Refused (n : Handle Nic) (i : Direction) (f : Frame) (b b' : Bench) : Prop
    extends OnlyCard n b b' where
  card : b'.nic n = (b.nic n).countRefused i
  journal : b'.journal =
    (if (b.nic n).gate.isReady then [.nic n (.ringFull i f.length)] else []) ++ b.journal

theorem accept_ok_iff (b : Bench) (n : Handle Nic) (i : Direction) (f : Frame) :
    (b.accept n i f).2 = .ok () ↔ (b.nic n).Admits i := by
  rcases b.accept_cases n i f with ⟨hr, ha, -⟩ | ⟨hr, hq, ha, -⟩ | ⟨hr, ha, r, hq, -⟩
  · rw [ha]
    exact iff_of_false nofun (Nic.not_admits_of_not_ready hr i)
  · rw [ha, Nic.admits_iff_of_ready hr i f, hq]
    exact iff_of_false nofun (fun h => h rfl)
  · rw [ha, Nic.admits_iff_of_ready hr i f, hq]
    exact iff_of_true rfl nofun

theorem accept_of_not_admits {i : Direction} (h : ¬ (b.nic n).Admits i) (f : Frame) :
    (b.accept n i f).2 = .error ⟨(b.nic n).refusal, f⟩ ∧ Refused n i f b (b.accept n i f).1 := by
  have hc := onlyCard_accept b n i f
  rcases b.accept_cases n i f with ⟨hr, ha, hx⟩ | ⟨hr, hq, ha, hx⟩ | ⟨-, ha, -⟩
  · refine ⟨by rw [ha, Nic.refusal_of_not_ready hr], hc, hx, ?_⟩
    simp [accept, hr, modifyNic]
  · refine ⟨by rw [ha, Nic.refusal_of_ready hr], hc, hx, ?_⟩
    simp [accept, hr, hq, modifyNic, record]
  · exact absurd ((b.accept_ok_iff n i f).mp ha) h

/-- Bring a frame to a card, from its driver or from its wire. -/
def offer (b : Bench) (n : Handle Nic) (i : Direction) (f : Frame) :
    Bench × Except Rejection Unit :=
  match i with
  | .transmit => b.transmit n f
  | .receive => b.deliver n f

theorem offer_transmit (b : Bench) (n : Handle Nic) (f : Frame) :
    b.offer n .transmit f = b.transmit n f := rfl

theorem offer_receive (b : Bench) (n : Handle Nic) (f : Frame) :
    b.offer n .receive f = b.deliver n f := rfl

/-- Only a frame that is taken has consequences: a hook that is raised, or a handler
that runs. -/
theorem offer_of_error {i : Direction} {r : Rejection} (h : (b.accept n i f).2 = .error r) :
    b.offer n i f = b.accept n i f := by
  cases i
  · rw [offer_transmit, transmit, show b.accept n .transmit f =
      ((b.accept n .transmit f).1, .error r) from Prod.ext rfl h]
  · exact deliver_of_error h

theorem offer_answer (b : Bench) (n : Handle Nic) (i : Direction) (f : Frame) :
    (b.offer n i f).2 = (b.accept n i f).2 := by
  cases i
  · exact (b.transmit_eq n f).1
  · exact (b.deliver_eq n f).1

/-- A frame that is taken is the newest of its ring, whatever a handler does then. -/
theorem offer_of_admits {i : Direction} (h : (b.nic n).Admits i) (f : Frame) :
    (((b.offer n i f).1.nic n).ring i).toList = ((b.nic n).ring i).toList ++ [f] := by
  have hok := (b.accept_ok_iff n i f).mpr h
  cases i
  · rw [offer_transmit, (b.transmit_eq n f).2.ring_eq, toList_ring_accept hok]
  · rw [offer_receive, (b.deliver_eq n f).2.ring_eq, toList_ring_accept hok]

theorem offer_of_not_admits {i : Direction} (h : ¬ (b.nic n).Admits i) (f : Frame) :
    (b.offer n i f).2 = .error ⟨(b.nic n).refusal, f⟩ ∧ Refused n i f b (b.offer n i f).1 := by
  have ha := accept_of_not_admits h f
  rw [offer_of_error ha.1]
  exact ha

/-! ## At those who send -/

/-- Cards, contexts and signals are the same on two benches. -/
structure SameHardware (b b' : Bench) : Prop where
  nics : b'.nics = b.nics
  contexts : b'.contexts = b.contexts
  signals : b'.signals = b.signals

namespace SameHardware

theorem symm (h : SameHardware b b') : SameHardware b' b :=
  ⟨h.nics.symm, h.contexts.symm, h.signals.symm⟩

theorem record (h : SameHardware b b') (e : Event) : SameHardware b (b'.record e) :=
  ⟨h.nics, h.contexts, h.signals⟩

theorem countDevice (h : SameHardware b b') (d : Handle Device) (g : Counters → Counters) :
    SameHardware b (b'.countDevice d g) :=
  ⟨h.nics, h.contexts, h.signals⟩

theorem countPeer (h : SameHardware b b') (p : Handle Peer) (g : Counters → Counters) :
    SameHardware b (b'.countPeer p g) :=
  ⟨h.nics, h.contexts, h.signals⟩

theorem modifyNic (h : SameHardware b b') (n : Handle Nic) (g : Nic → Nic) :
    SameHardware (b.modifyNic n g) (b'.modifyNic n g) :=
  ⟨congrArg (Store.modify · n g) h.nics, h.contexts, h.signals⟩

theorem nic_eq (h : SameHardware b b') (n : Handle Nic) : b'.nic n = b.nic n := by
  rw [nic, h.nics, ← nic]

end SameHardware

theorem sameHardware_refl (b : Bench) : SameHardware b b :=
  ⟨rfl, rfl, rfl⟩

/-- What a card answers depends on the hardware alone. -/
theorem SameHardware.accept (h : SameHardware b b') (n : Handle Nic) (i : Direction) (f : Frame) :
    (b'.accept n i f).2 = (b.accept n i f).2 ∧
      SameHardware (b.accept n i f).1 (b'.accept n i f).1 := by
  unfold Bench.accept
  dsimp only
  rw [h.nic_eq n]
  split
  · exact ⟨rfl, h.modifyNic n _⟩
  · split
    · exact ⟨rfl, ((h.modifyNic n _).symm.record _).symm.record _⟩
    · exact ⟨rfl, ((h.modifyNic n _).symm.record _).symm.record _⟩

theorem SameHardware.raiseHook (h : SameHardware b b') (n : Handle Nic) :
    SameHardware (b.raiseHook n) (b'.raiseHook n) := by
  unfold Bench.raiseHook
  rw [h.nic_eq n]
  split
  · next s _ => exact ⟨h.nics, h.contexts, congrArg (Store.modify · s Signal.raise) h.signals⟩
  · exact h

theorem SameHardware.transmit (h : SameHardware b b') (n : Handle Nic) (f : Frame) :
    (b'.transmit n f).2 = (b.transmit n f).2 ∧
      SameHardware (b.transmit n f).1 (b'.transmit n f).1 := by
  obtain ⟨ha, hb⟩ := h.accept n .transmit f
  unfold Bench.transmit
  generalize b.accept n .transmit f = x at ha hb
  generalize b'.accept n .transmit f = y at ha hb
  obtain ⟨b₁, answer⟩ := x
  obtain ⟨b₂, answer'⟩ := y
  obtain rfl : answer' = answer := ha
  cases answer'
  · exact ⟨rfl, hb⟩
  · exact ⟨rfl, hb.raiseHook n⟩

/-- What a device does with a frame.  One that is too long does not reach the hardware;
any other is brought to the card, whose answer is passed on.  Either way it is counted
once. -/
structure Sends (d : Handle Device) (f : Frame) (b : Bench) (out : Bench × Except Refusal Unit) :
    Prop where
  tooLong : Device.frameLimit < f.length →
    out.2 = .error (.frameTooLong f.length) ∧ SameHardware b out.1
  asked : f.length ≤ Device.frameLimit →
    out.2 = (b.offer (b.device d).nic .transmit f).2.mapError Rejection.reason ∧
      SameHardware (b.offer (b.device d).nic .transmit f).1 out.1
  counted : Counters.Reported f out.2 (b.device d).counters (out.1.device d).counters

/-- What a peer does with a frame, however long it is. -/
structure PeerSends (p : Handle Peer) (f : Frame) (b : Bench)
    (out : Bench × Except Refusal Unit) : Prop where
  asked : out.2 = (b.offer (b.peer p).nic .receive f).2.mapError Rejection.reason ∧
    SameHardware (b.offer (b.peer p).nic .receive f).1 out.1
  counted : Counters.Reported f out.2 (b.peer p).counters (out.1.peer p).counters

/-- A card only ever says that it is not ready or that its ring is full. -/
theorem outcome_of_accept_error {i : Direction} {r : Rejection}
    (h : (b.accept n i f).2 = .error r) : .of (.error r.reason) = Outcome.dropped := by
  rcases b.accept_cases n i f with ⟨-, ha, -⟩ | ⟨-, -, ha, -⟩ | ⟨-, ha, -⟩
  · obtain rfl := Except.error.inj (h.symm.trans ha)
    rfl
  · obtain rfl := Except.error.inj (h.symm.trans ha)
    rfl
  · cases h.symm.trans ha

/-- A device that brings a frame to its card passes the answer on and counts it. -/
theorem sends_of_asked {x : Event} {g : Counters → Counters} {answer : Except Refusal Unit}
    (hle : f.length ≤ Device.frameLimit)
    (ha : answer = ((b.record x).transmit (b.device d).nic f).2.mapError Rejection.reason)
    (hg : ∀ c, Counters.Reported f answer c (g c)) :
    Sends d f b (((b.record x).transmit (b.device d).nic f).1.countDevice d g, answer) := by
  -- Writing the frame down before it goes to the card changes nothing for the card.
  obtain ⟨hsame, hb⟩ := ((sameHardware_refl b).record x).transmit (b.device d).nic f
  refine ⟨fun hlong => absurd hlong (Nat.not_lt.mpr hle), fun _ => ?_, ?_⟩
  · rw [offer_transmit, ← hsame]
    exact ⟨ha, hb.countDevice d g⟩
  · rw [device_countDevice_self, (atCard_transmit (b.record x) (b.device d).nic f).device_eq d]
    exact hg _

theorem send_sends (b : Bench) (d : Handle Device) (f : Frame) : Sends d f b (b.send d f) := by
  rcases send_cases (b := b) (d := d) rfl f with
    ⟨hlong, x, y, hs⟩ | ⟨hle, x, ⟨hok, hs⟩ | ⟨r, hr, hs⟩⟩
  · rw [hs]
    refine ⟨fun _ => ⟨rfl, (((sameHardware_refl b).record x).record y).countDevice d _⟩,
      fun hle => absurd hlong (Nat.not_lt.mpr hle), ?_⟩
    rw [device_countDevice_self]
    exact Counters.reported_failed f _ _
  · rw [hs]
    exact sends_of_asked hle (by rw [hok]; rfl) (Counters.reported_sent f)
  · rw [hs]
    have ha := hr
    rw [((b.record x).transmit_eq _ f).1] at ha
    exact sends_of_asked hle (by rw [hr]; rfl)
      (Counters.reported_dropped f (outcome_of_accept_error ha))

theorem peerTransmit_sends (b : Bench) (p : Handle Peer) (f : Frame) :
    PeerSends p f b (b.peerTransmit p f) := by
  have hpeer := (atCard_deliver b (b.peer p).nic f).peer_eq p
  rcases peerTransmit_cases (b := b) (p := p) rfl f with ⟨hok, hs⟩ | ⟨r, x, hr, hs⟩
  · rw [hs]
    refine ⟨?_, ?_⟩
    · rw [offer_receive]
      refine ⟨?_, (sameHardware_refl _).countPeer p (·.sent f.length)⟩
      rw [hok]
      rfl
    · rw [peer_countPeer_self, hpeer]
      exact Counters.reported_sent f _
  · rw [hs]
    refine ⟨?_, ?_⟩
    · rw [offer_receive]
      refine ⟨?_, ((sameHardware_refl _).countPeer p _).record x⟩
      rw [hr]
      rfl
    · show Counters.Reported f _ _ (((b.deliver _ f).1.countPeer p _).peer p).counters
      rw [peer_countPeer_self, hpeer]
      rw [(b.deliver_eq _ f).1] at hr
      exact Counters.reported_dropped f (outcome_of_accept_error hr) _

/-- **Admission is exact, and a refusal leaves nothing behind.**  On any bench, a card
takes a frame if and only if it admits one, and puts it behind the others; otherwise the
same frame comes back with the reason, and only the counter of refused frames has moved.
Whoever sends passes the card's answer on and counts the frame once, and devices stop
frames that are too long before they reach a card. -/
theorem admission_exact (b : Bench) :
    (∀ n i f, ((b.offer n i f).2 = .ok () ↔ (b.nic n).Admits i) ∧
      ((b.nic n).Admits i →
        (((b.offer n i f).1.nic n).ring i).toList = ((b.nic n).ring i).toList ++ [f]) ∧
      (¬ (b.nic n).Admits i → (b.offer n i f).2 = .error ⟨(b.nic n).refusal, f⟩ ∧
        Refused n i f b (b.offer n i f).1)) ∧
    (∀ d f, Sends d f b (b.send d f)) ∧
    (∀ e f, Sends (b.endpoint e).device f b (b.sendEndpoint e f)) ∧
    ∀ p f, PeerSends p f b (b.peerTransmit p f) := by
  refine ⟨fun n i f => ⟨?_, fun h => offer_of_admits h f, fun h => offer_of_not_admits h f⟩,
    b.send_sends, fun e => b.send_sends (b.endpoint e).device, b.peerTransmit_sends⟩
  rw [offer_answer, accept_ok_iff]

/-- A bench with a peer at the other end of a card that is ready, whose rings are of the
least size. -/
def wired : Bench :=
  ((((default : Bench).addNic default).2.attachPeer ⟨0⟩).2).bringUp ⟨0⟩

/-- On it the peer sends twice.  The second frame finds the ring full, comes back, and
is counted as refused by the card and as dropped by the peer. -/
theorem admission_exact_full :
    let b := (wired.peerTransmit ⟨0⟩ ⟨[1]⟩).1
    (¬ (b.nic ⟨0⟩).Admits .receive ∧
      (b.offer ⟨0⟩ .receive ⟨[2]⟩).2 = .error ⟨.ringFull, ⟨[2]⟩⟩ ∧
      Refused ⟨0⟩ .receive ⟨[2]⟩ b (b.offer ⟨0⟩ .receive ⟨[2]⟩).1) ∧
    PeerSends ⟨0⟩ ⟨[2]⟩ b (b.peerTransmit ⟨0⟩ ⟨[2]⟩) := by
  intro b
  obtain ⟨hcard, -, -, hpeer⟩ := admission_exact b
  have hfull : ¬ (b.nic ⟨0⟩).Admits .receive := by decide +kernel
  have href := (hcard ⟨0⟩ .receive ⟨[2]⟩).2.2 hfull
  rw [Nic.refusal_of_ready (by decide +kernel)] at href
  exact ⟨⟨hfull, href⟩, hpeer ⟨0⟩ ⟨[2]⟩⟩

/-- A frame of zeros, one longer than a device sends. -/
def longFrame : Frame :=
  ⟨List.replicate (Device.frameLimit + 1) 0⟩

/-- A frame that is too long for a device is not too long for a peer: the card gets
it. -/
theorem peerTransmit_beyond_limit :
    Device.frameLimit < longFrame.length ∧ (wired.peerTransmit ⟨0⟩ longFrame).2 = .ok () ∧
      ((wired.peerTransmit ⟨0⟩ longFrame).1.nic ⟨0⟩).rx.toList = [longFrame] := by
  have hroom : (wired.nic (wired.peer ⟨0⟩).nic).Admits .receive := by decide +kernel
  have hok := (peerTransmit_sends wired ⟨0⟩ longFrame).asked.1
  rw [offer_answer, (wired.accept_ok_iff _ .receive longFrame).mpr hroom] at hok
  exact ⟨by decide +kernel, hok, by decide +kernel⟩

end Bench
end SoftNic
