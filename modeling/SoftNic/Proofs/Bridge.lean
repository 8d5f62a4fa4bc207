import SoftNic.Proofs.EndpointLoop

/-! # A bridge between two cards

What the wire collects from one card it may deliver to another: a peer at the first
card polls it, and its wire has a peer at the second card send every frame on.  A
frame then crosses four queues, from the transmit ring of the first card by way of the
receive ring of the second to a backlog and to whoever asks for it, and there is one
place where it can get lost: the second card may refuse it.

The invariant says what became of every frame that has left the first ring
(`Bench.Carrying`).  Both ends may be on the same card, and both peers may be the same;
then the card talks to itself.
-/
namespace SoftNic

/-- The parts of a bridge.  Frames go from the sender's card to the collector, which
has the feeder send them to the receiver's card. -/
structure Bridge where
  sender : Handle Endpoint
  source : Handle Nic
  collector : Handle Peer
  feeder : Handle Peer
  target : Handle Nic
  receiver : Handle Endpoint

namespace Bench

variable {g : Bridge} {d : Handle Device} {n m : Handle Nic} {b b' : Bench} {l l' : Receipts}
  {passed : List (Frame × Bool)} {inHand : List Frame} {f : Frame}

/-! ## Runs -/

/-- **What may happen to a bridge.**  Its ends are brought up, the sender sends, the
collector polls with any budget, and the receiver takes turns and is asked for
frames. -/
inductive BridgeRun (g : Bridge) : Bench → Receipts → Bench → Receipts → Prop
  | done (b : Bench) (l : Receipts) : BridgeRun g b l b l
  | trans {b b' b'' : Bench} {l l' l'' : Receipts} :
    BridgeRun g b l b' l' → BridgeRun g b' l' b'' l'' → BridgeRun g b l b'' l''
  | opened (b : Bench) (l : Receipts) (x : Handle Endpoint) : BridgeRun g b l (b.openEndpoint x) l
  | send (b : Bench) (l : Receipts) (f : Frame) :
    BridgeRun g b l (b.sendEndpoint g.sender f).1 (l.enter (b.sendEndpoint g.sender f).2 f)
  | poll (b : Bench) (l : Receipts) (budget : Nat) :
    BridgeRun g b l (pollPeer g.collector budget (loopback g.feeder) (b, ())).1.1 l
  | turn (b : Bench) (l : Receipts) : BridgeRun g b l (b.turnEndpoint g.receiver).1 l
  | receive (b : Bench) (l : Receipts) :
    BridgeRun g b l (b.receiveEndpoint g.receiver).1 (l.handOut (b.receiveEndpoint g.receiver).2)

/-! ## The invariant -/

/-- The parts of a bridge stand where they should. -/
structure Bridged (g : Bridge) (b : Bench) : Prop where
  sender : (b.device (b.endpoint g.sender).device).nic = g.source
  collector : (b.peer g.collector).nic = g.source
  feeder : (b.peer g.feeder).nic = g.target
  receiver : (b.device (b.endpoint g.receiver).device).nic = g.target

/-- The frames that arrived, of all that have passed. -/
def arrived (passed : List (Frame × Bool)) : List Frame :=
  (passed.filter fun x => x.2).map Prod.fst

/-- The frames that were refused. -/
def refused (passed : List (Frame × Bool)) : List Frame :=
  (passed.filter fun x => !x.2).map Prod.fst

/-- **What is under way.**  The frames that were sent have passed over the bridge, or
the collector has them in hand, or they are in the first ring.  Those that passed and
arrived were handed out, or wait in the backlog or in the second ring; and those that
did not arrive were counted on both sides of the second card. -/
structure Carrying (g : Bridge) (passed : List (Frame × Bool)) (inHand : List Frame) (b : Bench)
    (l : Receipts) : Prop extends Bridged g b where
  sent : l.accepted = passed.map Prod.fst ++ (inHand ++ (b.nic g.source).tx.toList)
  got : l.returned ++ ((b.endpoint g.receiver).backlog ++ (b.nic g.target).rx.toList) =
    arrived passed
  feederDropped : (b.peer g.feeder).counters.txDropped = UInt64.ofNat (refused passed).length
  targetDropped : (b.nic g.target).counters.rxDropped = UInt64.ofNat (refused passed).length
  sourceDown : (b.nic g.source).gate.isReady = false → (b.nic g.source).tx.toList = []
  targetDown : (b.nic g.target).gate.isReady = false → (b.nic g.target).rx.toList = []

theorem arrived_snoc (passed : List (Frame × Bool)) (f : Frame) (ok : Bool) :
    arrived (passed ++ [(f, ok)]) = arrived passed ++ (if ok then [f] else []) := by
  cases ok <;> simp [arrived]

theorem refused_snoc (passed : List (Frame × Bool)) (f : Frame) (ok : Bool) :
    refused (passed ++ [(f, ok)]) = refused passed ++ (if ok then [] else [f]) := by
  cases ok <;> simp [refused]

theorem Bridged.transfer (h : Bridged g b)
    (he : ∀ x, (b'.endpoint x).device = (b.endpoint x).device)
    (hd : ∀ x, (b'.device x).nic = (b.device x).nic)
    (hp : ∀ q, (b'.peer q).nic = (b.peer q).nic) : Bridged g b' where
  sender := by rw [he, hd, h.sender]
  collector := by rw [hp, h.collector]
  feeder := by rw [hp, h.feeder]
  receiver := by rw [he, hd, h.receiver]

theorem Bridged.atCard (h : Bridged g b) (ha : AtCard n b b') : Bridged g b' :=
  h.transfer (fun x => by rw [ha.endpoint_eq]) (fun x => by rw [ha.device_eq])
    (fun q => by rw [ha.peer_eq])

/-- An operation that lets no frame pass, and hands none out. -/
theorem Carrying.transfer (h : Carrying g passed inHand b l) (hb : Bridged g b')
    (htx : (b'.nic g.source).tx.toList = (b.nic g.source).tx.toList)
    (hrx : (b'.endpoint g.receiver).backlog ++ (b'.nic g.target).rx.toList =
      (b.endpoint g.receiver).backlog ++ (b.nic g.target).rx.toList)
    (hf : (b'.peer g.feeder).counters.txDropped = (b.peer g.feeder).counters.txDropped)
    (ht : (b'.nic g.target).counters.rxDropped = (b.nic g.target).counters.rxDropped)
    (hsource : (b'.nic g.source).gate.isReady = false → (b.nic g.source).gate.isReady = false)
    (htarget : (b'.nic g.target).gate.isReady = false → (b.nic g.target).gate.isReady = false)
    (hnil : (b.nic g.target).rx.toList = [] → (b'.nic g.target).rx.toList = []) :
    Carrying g passed inHand b' l where
  toBridged := hb
  sent := by rw [htx, h.sent]
  got := by rw [hrx, h.got]
  feederDropped := by rw [hf, h.feederDropped]
  targetDropped := by rw [ht, h.targetDropped]
  sourceDown hr := by rw [htx, h.sourceDown (hsource hr)]
  targetDown hr := hnil (h.targetDown (htarget hr))

/-! ## Opening -/

theorem Carrying.openEndpoint (h : Carrying g passed inHand b l) (x : Handle Endpoint) :
    Carrying g passed inHand (b.openEndpoint x) l := by
  have ha : AtCard _ b (b.openEndpoint x) := atCard_openDevice rfl
  obtain ⟨-, hsource, htx⟩ := b.openDevice_cards (b.endpoint x).device g.source
  obtain ⟨hc, htarget, hrx⟩ := b.openDevice_cards (b.endpoint x).device g.target
  have hkept : ((b.openEndpoint x).nic g.target).rx.toList = (b.nic g.target).rx.toList :=
    hrx .receive h.targetDown
  exact h.transfer (h.toBridged.atCard ha) (htx .transmit h.sourceDown)
    (by rw [ha.endpoint_eq, hkept]) (by rw [ha.peer_eq]) (congrArg Counters.rxDropped hc) hsource
    htarget fun hnil => hkept.trans hnil

/-! ## Sending -/

/-- Sending leaves the receive side of every card alone, and lets no card go down. -/
theorem send_cards (b : Bench) (d : Handle Device) (f : Frame) (m : Handle Nic) :
    ((b.send d f).1.nic m).rx = (b.nic m).rx ∧ ((b.send d f).1.nic m).gate = (b.nic m).gate ∧
      ((b.send d f).1.nic m).counters.rxDropped = (b.nic m).counters.rxDropped := by
  by_cases hm : m = (b.device d).nic
  · subst hm
    rcases send_outcome (rfl : (b.device d).nic = _) f with
      ⟨-, -, hn, -⟩ | ⟨-, -, -, ⟨tx, -, hn⟩, -⟩ | ⟨-, -, hn, -⟩
    · rw [nic, hn, ← nic]
      exact ⟨rfl, rfl, rfl⟩
    · rw [hn]
      exact ⟨rfl, rfl, rfl⟩
    · rw [hn]
      exact ⟨rfl, rfl, rfl⟩
  · rw [(send_beside rfl f).1 m hm]
    exact ⟨rfl, rfl, rfl⟩

/-- A frame is in the first ring if the sender was told that it was taken. -/
theorem Carrying.sendEndpoint (h : Carrying g passed inHand b l) (f : Frame) :
    Carrying g passed inHand (b.sendEndpoint g.sender f).1
      (l.enter (b.sendEndpoint g.sender f).2 f) := by
  unfold Bench.sendEndpoint
  have hd := h.sender
  generalize (b.endpoint g.sender).device = d at hd
  obtain ⟨-, hpeer, hend⟩ := send_beside hd f
  obtain ⟨-, hsource, -⟩ := b.send_cards d f g.source
  obtain ⟨hrx, htarget, hdrop⟩ := b.send_cards d f g.target
  have hties := sameTies_send (s := ⟨0⟩) b d f
  have hb : Bridged g (b.send d f).1 := h.toBridged.transfer (fun x => (hties.endpoint x).1)
    (fun x => (hties.device x).1) fun q => by rw [hpeer]
  have he : (b.send d f).1.endpoint g.receiver = b.endpoint g.receiver := hend g.receiver
  have hp : (b.send d f).1.peer g.feeder = b.peer g.feeder := hpeer g.feeder
  -- A frame that the card did not take changes no ring.
  have same : ((b.send d f).1.nic g.source).tx = (b.nic g.source).tx →
      Carrying g passed inHand (b.send d f).1 l := fun htx =>
    h.transfer hb (by rw [htx]) (by rw [he, hrx]) (by rw [hp]) hdrop (by rw [hsource]; exact id)
      (by rw [htarget]; exact id) (by rw [hrx]; exact id)
  rcases send_outcome hd f with
    ⟨-, hr, hn, -⟩ | ⟨-, hr, hready, ⟨tx, htx, hn⟩, -⟩ | ⟨-, ⟨r, hr⟩, hn, -⟩
  · rw [hr]
    exact same (by rw [nic, hn, ← nic])
  · rw [hr]
    refine ⟨hb, ?_, ?_, ?_, ?_, ?_, ?_⟩
    · rw [hn]
      show l.accepted ++ [f] = passed.map Prod.fst ++ (inHand ++ tx.toList)
      rw [h.sent, htx, List.append_assoc, List.append_assoc]
    · rw [he, hrx]
      exact h.got
    · rw [hp, h.feederDropped]
    · rw [hdrop, h.targetDropped]
    · rw [hsource, hready]
      exact fun hno => absurd hno (by decide)
    · rw [htarget, hrx]
      exact h.targetDown
  · rw [hr]
    exact same (by rw [hn])

/-! ## Crossing -/

/-- Collecting a frame leaves the receive side of every card alone. -/
theorem take_cards (b : Bench) (n m : Handle Nic) :
    ((b.take n .transmit).1.nic m).rx = (b.nic m).rx ∧
      ((b.take n .transmit).1.nic m).gate = (b.nic m).gate ∧
      ((b.take n .transmit).1.nic m).counters = (b.nic m).counters := by
  by_cases hm : m = n
  · subst hm
    rcases b.take_cases m .transmit with ⟨-, ht⟩ | ⟨-, f, r, -, -, hn⟩
    · rw [ht]
      exact ⟨rfl, rfl, rfl⟩
    · rw [hn]
      exact ⟨rfl, rfl, rfl⟩
  · rw [(onlyCard_take b n .transmit).nic m hm]
    exact ⟨rfl, rfl, rfl⟩

/-- A peer that sends leaves the transmit side of every card alone. -/
theorem peerTransmit_cards (b : Bench) (p : Handle Peer) (f : Frame) (m : Handle Nic) :
    ((b.peerTransmit p f).1.nic m).tx = (b.nic m).tx ∧
      ((b.peerTransmit p f).1.nic m).gate.phase = (b.nic m).gate.phase := by
  by_cases hm : m = (b.peer p).nic
  · subst hm
    rcases peerTransmit_outcome (rfl : (b.peer p).nic = _) f with
      ⟨-, -, ⟨rx, armed, -, hn⟩, -⟩ | ⟨-, hn, -⟩
    · rw [hn]
      exact ⟨rfl, rfl⟩
    · rw [hn]
      exact ⟨rfl, rfl⟩
  · rw [(peerTransmit_beside rfl f).1 m hm]
    exact ⟨rfl, rfl⟩

/-- The collector takes a frame in hand. -/
theorem Carrying.take (h : Carrying g passed [] b l)
    (hf : (b.take g.source .transmit).2 = some f) :
    Carrying g passed [f] (b.take g.source .transmit).1 l := by
  have ho := onlyCard_take b g.source .transmit
  obtain ⟨-, hsource, -⟩ := b.take_cards g.source g.source
  obtain ⟨hrx, htarget, hc⟩ := b.take_cards g.source g.target
  refine ⟨h.toBridged.atCard ho.atCard, ?_, ?_, ?_, ?_, ?_, ?_⟩
  · obtain ⟨r, hn, hr⟩ := take_of_some hf
    rw [hn, h.sent]
    exact congrArg (passed.map Prod.fst ++ ·) hr
  · rw [ho.atCard.endpoint_eq, hrx, h.got]
  · rw [ho.atCard.peer_eq, h.feederDropped]
  · rw [hc, h.targetDropped]
  · rw [hsource]
    exact fun hr => ring_take_of_nil (e := .transmit) (h.sourceDown hr)
  · rw [htarget, hrx]
    exact h.targetDown

/-- Counting at a peer is nothing to a bridge, unless a frame was refused. -/
theorem Carrying.countPeer (h : Carrying g passed inHand b l) (p : Handle Peer)
    (k : Counters → Counters) (hk : ∀ c, (k c).txDropped = c.txDropped) :
    Carrying g passed inHand (b.countPeer p k) l where
  toBridged :=
    h.toBridged.transfer (fun _ => rfl) (fun _ => rfl) fun q => nic_peer_countPeer b p k q
  sent := h.sent
  got := h.got
  feederDropped := by
    by_cases hp : g.feeder = p
    · rw [← hp, peer_countPeer_self, ← h.feederDropped]
      exact hk _
    · rw [peer_countPeer_of_ne hp, h.feederDropped]
  targetDropped := h.targetDropped
  sourceDown := h.sourceDown
  targetDown := h.targetDown

/-- The feeder sends the frame that is in hand: it has passed, and has arrived or was
refused. -/
theorem Carrying.peerTransmit (h : Carrying g passed [f] b l) :
    ∃ ok, Carrying g (passed ++ [(f, ok)]) [] (b.peerTransmit g.feeder f).1 l := by
  obtain ⟨htx, hsource⟩ := b.peerTransmit_cards g.feeder f g.source
  obtain ⟨-, htarget⟩ := b.peerTransmit_cards g.feeder f g.target
  obtain ⟨-, hdevice, he, hpeer⟩ := peerTransmit_beside h.feeder f
  have hsent : l.accepted = (passed ++ [(f, true)]).map Prod.fst ++
      ([] ++ ((b.peerTransmit g.feeder f).1.nic g.source).tx.toList) := by
    rw [htx, h.sent]
    simp
  have hb : ∀ k : Counters → Counters, (b.peerTransmit g.feeder f).1.peer g.feeder =
        { b.peer g.feeder with counters := k (b.peer g.feeder).counters } →
      Bridged g (b.peerTransmit g.feeder f).1 := fun k hp =>
    h.toBridged.transfer (fun x => by rw [he]) (fun x => by rw [hdevice])
      fun q => by
        by_cases hq : q = g.feeder
        · rw [hq, hp]
        · rw [hpeer q hq]
  have hsdown : ((b.peerTransmit g.feeder f).1.nic g.source).gate.isReady = false →
      ((b.peerTransmit g.feeder f).1.nic g.source).tx.toList = [] := by
    rw [Gate.isReady, hsource, htx]
    exact h.sourceDown
  rcases peerTransmit_outcome h.feeder f with
    ⟨-, hready, ⟨rx, armed, hrx, hn⟩, hp⟩ | ⟨-, hn, hp⟩
  · refine ⟨true, hb (·.sent f.length) hp, hsent, ?_, ?_, ?_, hsdown, ?_⟩
    · rw [he, hn, arrived_snoc, ← h.got]
      simp [hrx]
    · rw [hp, refused_snoc, if_pos rfl, List.append_nil, ← h.feederDropped]
      rfl
    · rw [hn, refused_snoc, if_pos rfl, List.append_nil, ← h.targetDropped]
      rfl
    -- It was accepted, so the second card is up.
    · rw [Gate.isReady, htarget, ← Gate.isReady, hready]
      exact fun hno => absurd hno (by decide)
  · refine ⟨false, hb Counters.sendDropped hp, by simpa using hsent, ?_, ?_, ?_, hsdown, ?_⟩
    · rw [he, hn, arrived_snoc]
      exact h.got.trans (List.append_nil _).symm
    · rw [hp, refused_snoc, List.length_append, UInt64.ofNat_add, ← h.feederDropped]
      rfl
    · rw [hn, refused_snoc, List.length_append, UInt64.ofNat_add, ← h.targetDropped]
      rfl
    · rw [hn]
      exact h.targetDown

/-- A poll lets frames pass, one after the other. -/
theorem Carrying.poll (h : Carrying g passed [] b l) (budget : Nat) :
    ∃ passed', Carrying g passed' [] (pollPeer g.collector budget (loopback g.feeder) (b, ())).1.1
      l := by
  let P : Bench × Unit → Prop := fun y => ∃ passed, Carrying g passed [] y.1 l
  have hdrain :
      P (drain g.source budget (collecting g.collector (loopback g.feeder)) (b, ())).1 := by
    refine pump_invariant (P := P) (fun b _ ⟨passed, hb⟩ hnone => ?_)
      (fun b _ f ⟨passed, hb⟩ hsome => ?_) budget ⟨passed, h⟩
    · show ∃ passed, Carrying g passed [] (b.take g.source .transmit).1 l
      rw [take_of_none hnone]
      exact ⟨passed, hb⟩
    · obtain ⟨ok, hb'⟩ :=
        ((hb.take hsome).countPeer g.collector (·.received f.length) fun _ => rfl).peerTransmit
      exact ⟨_, hb'⟩
  unfold pollPeer
  rw [h.collector]
  obtain ⟨passed', hb⟩ := hdrain
  dsimp only
  split
  · refine ⟨passed', Carrying.countPeer ?_ g.collector Counters.receiveFailed fun _ => rfl⟩
    exact ⟨⟨hb.sender, hb.collector, hb.feeder, hb.receiver⟩, hb.sent, hb.got, hb.feederDropped,
      hb.targetDropped, hb.sourceDown, hb.targetDown⟩
  · exact ⟨passed', hb⟩

/-! ## Receiving -/

/-- A turn of the receiver carries frames from the second ring to its backlog. -/
theorem Carrying.turnEndpoint (h : Carrying g passed inHand b l) :
    Carrying g passed inHand (b.turnEndpoint g.receiver).1 l := by
  have ha : Attached (b.endpoint g.receiver).device g.target
      (b.device (b.endpoint g.receiver).device).context
      (b.context (b.device (b.endpoint g.receiver).device).context).request b :=
    ⟨h.receiver, rfl, rfl⟩
  obtain ⟨fs, hc⟩ := carried_turnEndpoint ha rfl rfl
  have ht := hc.ties ⟨0⟩
  obtain ⟨armed, rx, hn, hrx⟩ := hc.card
  -- Sender and receiver may be on the same card, whose transmit side is kept too.
  have hsource : ((b.turnEndpoint g.receiver).1.nic g.source).tx = (b.nic g.source).tx ∧
      ((b.turnEndpoint g.receiver).1.nic g.source).gate.phase = (b.nic g.source).gate.phase := by
    by_cases hs : g.source = g.target
    · rw [hs, hn]
      exact ⟨rfl, rfl⟩
    · rw [hc.nic g.source hs]
      exact ⟨rfl, rfl⟩
  refine h.transfer (h.toBridged.transfer (fun x => (ht.endpoint x).1) (fun x => (ht.device x).1)
    fun q => by rw [peer, hc.peers, ← peer]) (by rw [hsource.1]) hc.backlog_append_ring
    (by rw [peer, hc.peers, ← peer]) (by rw [hn]) ?_ ?_ fun hnil => ?_
  · rw [Gate.isReady, hsource.2, Gate.isReady]
    exact id
  · rw [Gate.isReady, hc.phase_eq, Gate.isReady]
    exact id
  · rw [hrx] at hnil
    rw [hn]
    exact (List.append_eq_nil_iff.mp hnil).2

/-- The oldest frame of the backlog is handed out. -/
theorem Carrying.popBacklog (h : Carrying g passed inHand b l) :
    Carrying g passed inHand (b.popBacklog g.receiver).1
      (l.handOut (.ok (b.popBacklog g.receiver).2)) := by
  obtain ⟨hb, hl⟩ := popBacklog_eq b g.receiver
  have hgot : l.returned ++ (b.popBacklog g.receiver).2.toList ++
      (((b.popBacklog g.receiver).1.endpoint g.receiver).backlog ++
        (b.nic g.target).rx.toList) = arrived passed := by
    rw [← h.got, ← hl]
    simp only [List.append_assoc]
  have ht : SameTies ⟨0⟩ b (b.popBacklog g.receiver).1 := by
    rcases hb with hb | ⟨rest, hb⟩
    · rw [hb]
      exact .refl b
    · rw [hb]
      exact sameTies_setBacklog b g.receiver fun _ => rest
  have hstores : (b.popBacklog g.receiver).1.nics = b.nics ∧
      (b.popBacklog g.receiver).1.peers = b.peers := by
    rcases hb with hb | ⟨rest, hb⟩
    · rw [hb]
      exact ⟨rfl, rfl⟩
    · rw [hb]
      exact ⟨rfl, rfl⟩
  have hn : ∀ m, (b.popBacklog g.receiver).1.nic m = b.nic m := fun m => by
    rw [nic, hstores.1, ← nic]
  have hp : ∀ q, (b.popBacklog g.receiver).1.peer q = b.peer q := fun q => by
    rw [peer, hstores.2, ← peer]
  exact ⟨h.toBridged.transfer (fun x => (ht.endpoint x).1) (fun x => (ht.device x).1)
    fun q => by rw [hp], by rw [hn]; exact h.sent, by rw [hn]; exact hgot,
    by rw [hp]; exact h.feederDropped, by rw [hn]; exact h.targetDropped,
    by rw [hn]; exact h.sourceDown, by rw [hn]; exact h.targetDown⟩

theorem Carrying.receiveEndpoint (h : Carrying g passed inHand b l) :
    Carrying g passed inHand (b.receiveEndpoint g.receiver).1
      (l.handOut (b.receiveEndpoint g.receiver).2) := by
  have ht := h.turnEndpoint
  rw [receiveEndpoint_eq]
  split
  · split
    · next b' f hb =>
      rw [hb] at ht
      exact ht
    · next b' hb =>
      rw [hb] at ht
      exact ht.popBacklog
  · exact h.popBacklog

/-! ## The stream -/

/-- Whatever happens to a bridge, it goes on to carry. -/
theorem BridgeRun.carrying (hr : BridgeRun g b l b' l')
    (h : ∃ passed, Carrying g passed [] b l) : ∃ passed, Carrying g passed [] b' l' := by
  induction hr with
  | done b l => exact h
  | trans _ _ ih₁ ih₂ => exact ih₂ (ih₁ h)
  | opened b l x =>
    obtain ⟨passed, h⟩ := h
    exact ⟨passed, h.openEndpoint x⟩
  | send b l f =>
    obtain ⟨passed, h⟩ := h
    exact ⟨passed, h.sendEndpoint f⟩
  | poll b l budget =>
    obtain ⟨passed, h⟩ := h
    exact h.poll budget
  | turn b l =>
    obtain ⟨passed, h⟩ := h
    exact ⟨passed, h.turnEndpoint⟩
  | receive b l =>
    obtain ⟨passed, h⟩ := h
    exact ⟨passed, h.receiveEndpoint⟩

/-- A new bridge: its parts stand where they should, nothing is under way, and nothing
was refused. -/
structure NewBridge (g : Bridge) (b : Bench) : Prop extends Bridged g b where
  tx : (b.nic g.source).tx.toList = []
  rx : (b.nic g.target).rx.toList = []
  backlog : (b.endpoint g.receiver).backlog = []
  feederDropped : (b.peer g.feeder).counters.txDropped = 0
  targetDropped : (b.nic g.target).counters.rxDropped = 0

theorem NewBridge.carrying (h : NewBridge g b) : Carrying g [] [] b {} where
  toBridged := h.toBridged
  sent := by rw [h.tx]; rfl
  got := by rw [h.rx, h.backlog]; rfl
  feederDropped := h.feederDropped
  targetDropped := h.targetDropped
  sourceDown _ := h.tx
  targetDown _ := h.rx

/-- What arrives has passed, in the same order. -/
theorem arrived_sublist (passed : List (Frame × Bool)) :
    (arrived passed).Sublist (passed.map Prod.fst) :=
  List.filter_sublist.map Prod.fst

theorem arrived_of_refused_nil (h : refused passed = []) :
    arrived passed = passed.map Prod.fst := by
  rw [refused, List.map_eq_nil_iff, List.filter_eq_nil_iff] at h
  rw [arrived, List.filter_eq_self.mpr]
  intro x hx
  simpa using h x hx

/-- **A bridge preserves the stream of frames.**  Whatever is done with a new bridge,
the frames that the sender was told were taken are those that passed, followed by the
ring of the source.  Those that passed and arrived are what the receiver handed out,
followed by its backlog and the ring of the target, in the order in which they were
sent.  The others were refused there, and both the feeder and the target counted them;
so if none was refused, none is missing. -/
theorem sent_eq_passed_append_ring {b₀ : Bench} (h : NewBridge g b₀)
    (hr : BridgeRun g b₀ {} b l) :
    ∃ passed : List (Frame × Bool),
      l.accepted = passed.map Prod.fst ++ (b.nic g.source).tx.toList ∧
      l.returned ++ ((b.endpoint g.receiver).backlog ++ (b.nic g.target).rx.toList) =
        arrived passed ∧
      (l.returned ++ ((b.endpoint g.receiver).backlog ++ (b.nic g.target).rx.toList)).Sublist
        l.accepted ∧
      (b.peer g.feeder).counters.txDropped = UInt64.ofNat (refused passed).length ∧
      (b.nic g.target).counters.rxDropped = UInt64.ofNat (refused passed).length ∧
      (refused passed = [] → l.returned ++ ((b.endpoint g.receiver).backlog ++
        (b.nic g.target).rx.toList) ++ (b.nic g.source).tx.toList = l.accepted) := by
  obtain ⟨passed, hc⟩ := hr.carrying ⟨[], h.carrying⟩
  have hsent : l.accepted = passed.map Prod.fst ++ (b.nic g.source).tx.toList := hc.sent
  refine ⟨passed, hsent, hc.got, ?_, hc.feederDropped, hc.targetDropped, fun hnone => ?_⟩
  · rw [hc.got, hsent]
    exact (arrived_sublist passed).trans (List.sublist_append_left ..)
  · rw [hc.got, hsent, arrived_of_refused_nil hnone]

/-- Two new cards with rings of the least size, a peer at each, and an endpoint on
each. -/
def twoCards : Bench :=
  let b := (((default : Bench).addNic default).2.addNic default).2
  let b := ((b.attachPeer ⟨0⟩).2.attachPeer ⟨1⟩).2
  ((b.addEndpoint .standard ⟨0⟩).2.addEndpoint .standard ⟨1⟩).2

/-- The bridge between them. -/
def acrossTwo : Bridge :=
  ⟨⟨0⟩, ⟨0⟩, ⟨0⟩, ⟨1⟩, ⟨1⟩, ⟨1⟩⟩

theorem newBridge_acrossTwo : NewBridge acrossTwo twoCards where
  sender := by decide +kernel
  collector := by decide +kernel
  feeder := by decide +kernel
  receiver := by decide +kernel
  tx := by decide +kernel
  rx := by decide +kernel
  backlog := by decide +kernel
  feederDropped := by decide +kernel
  targetDropped := by decide +kernel

/-- Two frames cross one after the other, and the second finds the ring full.  A third
is still in the ring of the source when the first is handed out. -/
theorem sent_eq_passed_append_ring_acrossTwo :
    ∃ b l, NewBridge acrossTwo twoCards ∧ BridgeRun acrossTwo twoCards {} b l ∧
      l = ⟨[⟨[1]⟩, ⟨[2]⟩, ⟨[3]⟩], [⟨[1]⟩]⟩ ∧ ∃ passed : List (Frame × Bool),
        l.accepted = passed.map Prod.fst ++ (b.nic acrossTwo.source).tx.toList ∧
        (b.peer acrossTwo.feeder).counters.txDropped = UInt64.ofNat (refused passed).length := by
  have run : BridgeRun acrossTwo twoCards {} _ _ :=
    ((((((((BridgeRun.opened _ _ ⟨0⟩).trans (.opened _ _ ⟨1⟩)).trans (.send _ _ ⟨[1]⟩)).trans
      (.poll _ _ 1)).trans (.send _ _ ⟨[2]⟩)).trans (.poll _ _ 3)).trans
      (.send _ _ ⟨[3]⟩)).trans (.turn _ _)).trans (.receive _ _)
  obtain ⟨passed, hsent, -, -, hdrop, -⟩ := sent_eq_passed_append_ring newBridge_acrossTwo run
  exact ⟨_, _, newBridge_acrossTwo, run, by decide +kernel, passed, hsent, hdrop⟩

end Bench
end SoftNic
