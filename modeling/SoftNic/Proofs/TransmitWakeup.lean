import Mathlib.Logic.Relation
import SoftNic.Proofs.Traffic
import SoftNic.Proofs.Transfers

/-! # No frame left behind for the wire

A card raises its hook each time a frame is queued for the wire, and the signal does not
count: however many frames wait, it is pending or it is not.  The wire looks at the
signal, which takes it, and if it was pending polls until one poll stays below its budget
(`WireStep`).  Meanwhile frames are sent and cards go up and down, also from inside the
wire (`Busy`).

The signal is taken before the first poll, and the last poll has seen the ring empty.
So whatever is queued in between is either collected in the same round or has raised the
signal again (`Watched`).  What an operation may do to a transmit ring is said once, in
`Outgoing`: empty it, take from it, or queue a frame and raise the hook.
-/
namespace SoftNic
namespace Bench

variable {γ : Type} {n m : Handle Nic} {p : Handle Peer} {s t : Handle Signal} {inRound : Bool}
  {b b' b'' : Bench}

/-! ## Runs -/

/-- What is done with the cards of a bench while nobody looks at a hook. -/
inductive Busy : Bench → Bench → Prop
  | card (b : Bench) (m : Handle Nic) (op : CardOp) : Busy b (cardStep m b op)
  | opened (b : Bench) (d : Handle Device) : Busy b (b.openDevice d)
  | closed (b : Bench) (d : Handle Device) : Busy b (b.closeDevice d).1
  | sent (b : Bench) (d : Handle Device) (f : Frame) : Busy b (b.send d f).1
  | peerSent (b : Bench) (q : Handle Peer) (f : Frame) : Busy b (b.peerTransmit q f).1

/-- A wire that does no more than that, for each frame as often as it likes. -/
def Working (wire : Sink γ) : Prop :=
  ∀ f b g, Relation.ReflTransGen Busy b (wire f (b, g)).1

/-- What happens around a peer.  The flag says whether the wire is in the middle of a
round: it has found the signal pending, and no poll has stayed below its budget since. -/
inductive WireStep (p : Handle Peer) : Bool × Bench → Bool × Bench → Prop
  | busy (inRound : Bool) {b b' : Bench} (h : Busy b b') : WireStep p (inRound, b) (inRound, b')
  | looked (b : Bench) : WireStep p (false, b)
    ((b.takeSignal (b.peer p).signal).2, (b.takeSignal (b.peer p).signal).1)
  | polled (b : Bench) {γ : Type} (budget : Nat) (wire : Sink γ) (g : γ) (hb : 1 ≤ budget)
    (hw : Working wire) : WireStep p (true, b)
    (!decide ((pollPeer p budget wire (b, g)).2 < budget), (pollPeer p budget wire (b, g)).1.1)

/-! ## What becomes of a transmit ring -/

/-- Either the ring is empty, or frames were taken at most, or one was queued and the hook
was raised. -/
inductive Outgoing (m : Handle Nic) (b b' : Bench) : Prop
  | emptied (ht : (b'.nic m).tx.toList = [])
  | taken (hd : (b'.nic m).gate.phase.canDrain = (b.nic m).gate.phase.canDrain)
    (ht : (b.nic m).tx.toList = [] → (b'.nic m).tx.toList = [])
  | queued (hd : (b'.nic m).gate.phase.canDrain = true)
    (hs : ∀ t, (b.nic m).hook = some t → (b'.signal t).isPending = true)

/-- No hook changes, no signal is taken, and who queues a frame raises the hook. -/
structure Announced (b b' : Bench) : Prop where
  peer : ∀ q, (b'.peer q).nic = (b.peer q).nic ∧ (b'.peer q).signal = (b.peer q).signal
  hook : ∀ m, (b'.nic m).hook = (b.nic m).hook
  pending : ∀ t, (b.signal t).isPending = true → (b'.signal t).isPending = true
  outgoing : ∀ m, Outgoing m b b'

theorem Outgoing.of_same (hg : (b'.nic m).gate = (b.nic m).gate)
    (ht : (b'.nic m).tx.toList = (b.nic m).tx.toList) : Outgoing m b b' :=
  .taken (by rw [hg]) ht.trans

theorem Outgoing.of_nic_eq (h : b'.nic m = b.nic m) : Outgoing m b b' :=
  .of_same (by rw [h]) (by rw [h])

namespace Announced

theorem trans (h : Announced b b') (k : Announced b' b'') : Announced b b'' where
  peer q := ⟨(k.peer q).1.trans (h.peer q).1, (k.peer q).2.trans (h.peer q).2⟩
  hook m := (k.hook m).trans (h.hook m)
  pending t ht := k.pending t (h.pending t ht)
  outgoing m := by
    have hk := h.hook m
    cases k.outgoing m with
    | emptied ht => exact .emptied ht
    | queued hd hs => exact .queued hd fun t ht => hs t (hk.trans ht)
    | taken hd ht =>
      -- What was queued before is still announced, since no signal is taken.
      cases h.outgoing m with
      | emptied ht' => exact .emptied (ht ht')
      | taken hd' ht' => exact .taken (hd.trans hd') fun hnil => ht (ht' hnil)
      | queued hd' hs' => exact .queued (hd.trans hd') fun t hx => k.pending t (hs' t hx)

theorem of_nics (hn : b'.nics = b.nics)
    (hp : ∀ q, (b'.peer q).nic = (b.peer q).nic ∧ (b'.peer q).signal = (b.peer q).signal)
    (hs : ∀ t, (b.signal t).isPending = true → (b'.signal t).isPending = true) :
    Announced b b' where
  peer := hp
  hook m := by rw [nic, hn, ← nic]
  pending := hs
  outgoing m := .of_nic_eq (by rw [nic, hn, ← nic])

theorem refl (b : Bench) : Announced b b :=
  .of_nics rfl (fun _ => ⟨rfl, rfl⟩) fun _ => id

theorem record (h : Announced b b') (e : Event) : Announced b (b'.record e) :=
  h.trans (.of_nics rfl (fun _ => ⟨rfl, rfl⟩) fun _ => id)

theorem recordIf (h : Announced b b') (q : Bool) (e : Event) : Announced b (b'.recordIf q e) := by
  cases q
  · exact h
  · exact h.record e

theorem countDevice (h : Announced b b') (d : Handle Device) (g : Counters → Counters) :
    Announced b (b'.countDevice d g) :=
  h.trans (.of_nics rfl (fun _ => ⟨rfl, rfl⟩) fun _ => id)

theorem countPeer (h : Announced b b') (q : Handle Peer) (g : Counters → Counters) :
    Announced b (b'.countPeer q g) := by
  refine h.trans (.of_nics rfl (fun x => ⟨nic_peer_countPeer b' q g x, ?_⟩) fun _ => id)
  by_cases hx : x = q
  · rw [hx, peer_countPeer_self]
  · rw [peer_countPeer_of_ne hx]

end Announced

/-- An operation that changes one card, signals and contexts. -/
theorem AtCard.announced (h : AtCard m b b') (hk : (b'.nic m).hook = (b.nic m).hook)
    (hs : ∀ t, (b.signal t).isPending = true → (b'.signal t).isPending = true)
    (hout : Outgoing m b b') : Announced b b' where
  peer q := by
    rw [h.peer_eq]
    exact ⟨rfl, rfl⟩
  hook i := by
    by_cases hi : i = m
    · rw [hi, hk]
    · rw [h.nic i hi]
  pending := hs
  outgoing i := by
    by_cases hi : i = m
    · rw [hi]
      exact hout
    · exact .of_nic_eq (h.nic i hi)

theorem OnlyCard.announced (ho : OnlyCard m b b') (hk : (b'.nic m).hook = (b.nic m).hook)
    (hout : Outgoing m b b') : Announced b b' :=
  ho.atCard.announced hk (fun t ht => by rwa [ho.signal_eq]) hout

theorem Interrupted.announced (hi : Interrupted m b b')
    (hs : ∀ t, (b.signal t).isPending = true → (b'.signal t).isPending = true) :
    Announced b b' := by
  refine hi.atCard.announced hi.hook_eq hs (.taken ?_ ?_)
  · rw [hi.phase_eq]
  · intro hnil
    exact (congrArg Ring.toList (hi.ring_eq .transmit)).trans hnil

/-! ### Interrupts -/

theorem announced_raise (b : Bench) (s : Handle Signal) : Announced b (b.raise s) :=
  .of_nics rfl (fun _ => ⟨rfl, rfl⟩) fun _ ht => isPending_raise_of_isPending ht s

theorem announced_setPhase (b : Bench) (c : Handle PollContext) (x : PollPhase) :
    Announced b (b.setPhase c x) :=
  .of_nics rfl (fun _ => ⟨rfl, rfl⟩) fun _ => id

theorem announced_schedule (b : Bench) (c : Handle PollContext) : Announced b (b.schedule c).1 := by
  by_cases hi : (b.context c).phase = .idle
  · rw [schedule_of_idle hi, request_eq]
    exact ((announced_setPhase b c _).record _).trans (announced_raise _ _)
  · rw [schedule_of_not_idle hi]
    exact .refl b

theorem announced_modifyGate (b : Bench) (m : Handle Nic) (armed : Bool) :
    Announced b (b.modifyNic m fun x => { x with gate := { x.gate with armed } }) :=
  (interrupted_modifyGate m b armed).announced fun _ => id

theorem announced_foldl_act (m : Handle Nic) (as : List HandlerAction) (b : Bench) :
    Announced b (as.foldl (act m) b) := by
  induction as generalizing b with
  | nil => exact .refl b
  | cons a as ih =>
    have ha : Announced b (act m b a) := by
      cases a with
      | raise t => exact announced_raise b t
      | arm => exact announced_modifyGate b m true
      | disarm => exact announced_modifyGate b m false
      | schedule c => exact announced_schedule b c
    exact ha.trans (ih _)

theorem announced_interrupt (b : Bench) (m : Handle Nic) : Announced b (b.interrupt m).1 := by
  unfold interrupt
  split
  · split
    · next as _ => exact ((Announced.refl b).record _).trans (announced_foldl_act m as _)
    · exact .refl b
  · exact .refl b

theorem announced_rearm (b : Bench) (m : Handle Nic) : Announced b (b.rearm m) := by
  have ha : Announced b (b.armLine m) := (announced_modifyGate b m true).record _
  rw [rearm_eq]
  split
  · exact ha.trans (announced_interrupt _ m)
  · exact ha

/-! ### Frames -/

/-- Whatever is queued for the wire is announced. -/
theorem announced_transmit (b : Bench) (m : Handle Nic) (f : Frame) :
    Announced b (b.transmit m f).1 := by
  have ho := onlyCard_accept b m .transmit f
  have hc := b.accept_control m .transmit f
  have refused : (b.accept m .transmit f).1.nic m = (b.nic m).countRefused .transmit →
      Announced b (b.accept m .transmit f).1 := by
    intro hn
    exact ho.announced hc.hook (.of_same hc.gate (by rw [hn]; rfl))
  rcases b.accept_cases m .transmit f with ⟨-, ha, hn⟩ | ⟨-, -, ha, hn⟩ | ⟨hr, ha, -⟩
  · rw [transmit_of_error ha]
    exact refused hn
  · rw [transmit_of_error ha]
    exact refused hn
  · have hi := (b.transmit_eq m f).2
    have hk : ((b.transmit m f).1.nic m).hook = (b.nic m).hook := hi.hook_eq.trans hc.hook
    -- A ready card is one that frames can be taken from.
    have hd : ((b.transmit m f).1.nic m).gate.phase.canDrain = true := by
      have hp : (b.nic m).gate.phase = .ready := by simpa [Gate.isReady] using hr
      rw [hi.phase_eq, hc.gate, hp]
      rfl
    refine (atCard_transmit b m f).announced hk ?_ (.queued hd ?_)
    · intro t ht
      have ht' : ((b.accept m .transmit f).1.signal t).isPending = true := by rwa [ho.signal_eq]
      rcases b.transmit_cases m f with he | ⟨u, -, he⟩
      · rwa [he]
      · rw [he]
        exact isPending_raise_of_isPending ht' u
    · intro t ht
      rw [transmit_of_ok ha, raiseHook_of_some (hc.hook.trans ht)]
      exact isPending_raise _ t

theorem announced_take (b : Bench) (m : Handle Nic) (i : Direction) :
    Announced b (b.take m i).1 := by
  have hc := b.take_control m i
  refine (onlyCard_take b m i).announced hc.hook (.taken ?_ (ring_take_of_nil (e := .transmit)))
  rw [hc.gate]

theorem announced_deliver (b : Bench) (m : Handle Nic) (f : Frame) :
    Announced b (b.deliver m f).1 := by
  have hc := b.accept_control m .receive f
  have hx := ring_accept_of_ne (d := .receive) (e := .transmit) nofun b m f
  have ha : Announced b (b.accept m .receive f).1 :=
    (onlyCard_accept b m .receive f).announced hc.hook
      (.of_same hc.gate (congrArg Ring.toList hx))
  rcases b.deliver_cases m f with ⟨-, hd, -⟩ | ⟨-, -, q, e, hd⟩
  · rw [hd]
    exact ha
  · rw [hd]
    exact (ha.trans (announced_interrupt _ m)).recordIf q e

/-! ### Cards up and down -/

theorem announced_setUp (b : Bench) (m : Handle Nic) : Announced b (b.setUp m) := by
  have ho := onlyCard_setUp b m
  by_cases hr : (b.nic m).gate.isReady = true
  · have hn := nic_setUp_of_ready hr
    exact ho.announced (by rw [hn]) (.of_nic_eq hn)
  · have hn := nic_setUp_of_not_ready hr
    refine ho.announced (by rw [hn]; rfl) (.emptied ?_)
    rw [hn]
    exact (b.nic m).toList_ring_emptied .transmit

theorem announced_bringUp (b : Bench) (m : Handle Nic) : Announced b (b.bringUp m) := by
  have ho := onlyCard_bringUp b m
  by_cases hr : (b.nic m).gate.isReady = true
  · have hn := nic_bringUp_of_ready hr
    exact ho.announced (by rw [hn]) (.of_nic_eq hn)
  · have hn := nic_bringUp_of_not_ready hr
    refine ho.announced (by rw [hn]; rfl) (.emptied ?_)
    rw [hn]
    exact (b.nic m).toList_ring_emptied .transmit

/-- A card that is shut down keeps what is queued, and it can still be taken. -/
theorem announced_shutDown (b : Bench) (m : Handle Nic) : Announced b (b.shutDown m) := by
  have hn := b.nic_shutDown m
  refine (onlyCard_shutDown b m).announced (by rw [hn]) (.taken ?_ ?_)
  · rw [hn]
    obtain ⟨phase, armed⟩ := (b.nic m).gate
    cases phase <;> rfl
  · rw [hn]
    exact id

theorem announced_tearDown (b : Bench) (m : Handle Nic) : Announced b (b.tearDown m).1 := by
  have hn := b.nic_tearDown m
  refine (onlyCard_tearDown b m).announced (by rw [hn]; rfl) (.emptied ?_)
  rw [hn]
  exact (b.nic m).toList_ring_emptied .transmit

theorem announced_removeHandler (b : Bench) (m : Handle Nic) :
    Announced b (b.removeHandler m) := by
  have hn := nic_removeHandler b m
  exact (onlyCard_removeHandler b m).announced (by rw [hn]) (.of_same (by rw [hn]) (by rw [hn]))

theorem announced_installHandler (b : Bench) (m : Handle Nic) (as : List HandlerAction) :
    Announced b (b.installHandler m as) := by
  have hn := nic_installHandler b m as
  exact (onlyCard_installHandler b m as).announced (by rw [hn]) (.of_same (by rw [hn]) (by rw [hn]))

theorem announced_enableContext (b : Bench) (c : Handle PollContext) :
    Announced b (b.enableContext c) := by
  obtain ⟨hi, -, hs⟩ := interrupted_enableContext ⟨0⟩ b c
  refine hi.announced fun t ht => ?_
  rwa [signal, hs]

theorem announced_disableContext (b : Bench) (c : Handle PollContext) :
    Announced b (b.disableContext c).1 := by
  unfold disableContext
  split
  · exact .refl b
  · exact (announced_setPhase b c _).record _
  · exact announced_setPhase b c _

theorem announced_openDevice (b : Bench) (d : Handle Device) : Announced b (b.openDevice d) := by
  have h₁ := ((Announced.refl b).record (.device (b.device d).name.text .opened)).trans
    (announced_setUp _ (b.device d).nic)
  have h₂ := h₁.trans (announced_enableContext _ (b.device d).context)
  have h₃ := h₂.trans (announced_installHandler _ (b.device d).nic (b.device d).handler)
  exact h₃.trans (announced_bringUp _ (b.device d).nic)

/-- Closing a device, also one whose pass is running. -/
theorem announced_closeDevice (b : Bench) (d : Handle Device) :
    Announced b (b.closeDevice d).1 := by
  have h₁ := ((Announced.refl b).record (.device (b.device d).name.text .closed)).trans
    (announced_shutDown _ (b.device d).nic)
  have h₂ := h₁.trans (announced_removeHandler _ (b.device d).nic)
  have h₃ := h₂.trans (announced_disableContext _ (b.device d).context)
  unfold closeDevice
  dsimp only
  split
  · next hc =>
    rw [recordDevice] at hc
    rwa [hc] at h₃
  · next hc =>
    rw [recordDevice] at hc
    rw [hc] at h₃
    have h₄ := h₃.trans (announced_tearDown _ (b.device d).nic)
    exact (h₄.recordIf _ _).countDevice d fun _ => Counters.zero

/-! ### Whatever is done -/

theorem announced_cardStep (m : Handle Nic) (b : Bench) (op : CardOp) :
    Announced b (cardStep m b op) := by
  cases op with
  | setUp => exact announced_setUp b m
  | bringUp => exact announced_bringUp b m
  | shutDown => exact announced_shutDown b m
  | tearDown => exact announced_tearDown b m
  | rearm => exact announced_rearm b m
  | mask => exact announced_modifyGate b m false
  | removeHandler => exact announced_removeHandler b m
  | transmit f => exact announced_transmit b m f
  | deliver f => exact announced_deliver b m f
  | take i => exact announced_take b m i

theorem announced_send (b : Bench) (d : Handle Device) (f : Frame) :
    Announced b (b.send d f).1 := by
  have pass : ∀ x, Announced b ((b.record x).transmit (b.device d).nic f).1 := fun x =>
    ((Announced.refl b).record x).trans (announced_transmit _ _ f)
  rcases send_cases (rfl : (b.device d).nic = _) f with
    ⟨-, x, y, hs⟩ | ⟨-, x, ⟨-, hs⟩ | ⟨r, -, hs⟩⟩
  · rw [hs]
    exact (((Announced.refl b).record x).record y).countDevice d Counters.sendFailed
  · rw [hs]
    exact (pass x).countDevice d (·.sent f.length)
  · rw [hs]
    exact (pass x).countDevice d Counters.sendDropped

theorem announced_peerTransmit (b : Bench) (q : Handle Peer) (f : Frame) :
    Announced b (b.peerTransmit q f).1 := by
  have hd := announced_deliver b (b.peer q).nic f
  rcases peerTransmit_cases (rfl : (b.peer q).nic = _) f with ⟨-, hs⟩ | ⟨r, x, -, hs⟩
  · rw [hs]
    exact hd.countPeer q (·.sent f.length)
  · rw [hs]
    exact (hd.countPeer q Counters.sendDropped).record x

theorem Busy.announced (h : Busy b b') : Announced b b' := by
  cases h with
  | card m op => exact announced_cardStep m b op
  | opened d => exact announced_openDevice b d
  | closed d => exact announced_closeDevice b d
  | sent d f => exact announced_send b d f
  | peerSent q f => exact announced_peerTransmit b q f

theorem announced_of_busy (h : Relation.ReflTransGen Busy b b') : Announced b b' := by
  induction h with
  | refl => exact .refl b
  | tail _ hs ih => exact ih.trans hs.announced

/-! ## The invariant -/

/-- **No frame is left behind**: a peer's signal is the hook of its card, nothing is queued
where nothing can be taken, and between rounds the signal is pending or nothing is
queued at all. -/
structure Watched (n : Handle Nic) (p : Handle Peer) (s : Handle Signal) (inRound : Bool)
    (b : Bench) : Prop where
  nic_eq : (b.peer p).nic = n
  signal_eq : (b.peer p).signal = s
  hook : (b.nic n).hook = some s
  down : (b.nic n).gate.phase.canDrain = false → (b.nic n).tx.toList = []
  heard : inRound = false → (b.signal s).isPending = true ∨ (b.nic n).tx.toList = []

theorem Watched.announced (h : Watched n p s inRound b) (ha : Announced b b') :
    Watched n p s inRound b' := by
  have hpeer := ha.peer p
  have hn : (b'.peer p).nic = n := hpeer.1.trans h.nic_eq
  have hs : (b'.peer p).signal = s := hpeer.2.trans h.signal_eq
  have hk : (b'.nic n).hook = some s := (ha.hook n).trans h.hook
  cases ha.outgoing n with
  | emptied ht => exact ⟨hn, hs, hk, fun _ => ht, fun _ => Or.inr ht⟩
  | taken hd ht =>
    refine ⟨hn, hs, hk, fun hno => ht (h.down (hd.symm.trans hno)), fun hr => ?_⟩
    exact (h.heard hr).imp (ha.pending s) ht
  | queued hd hq =>
    refine ⟨hn, hs, hk, fun hno => ?_, fun _ => Or.inl (hq s h.hook)⟩
    rw [hd] at hno
    cases hno

/-- A peer that is attached while nothing is queued. -/
theorem Plugs.watched (h : Plugs n p s b b') (hnil : (b.nic n).tx.toList = []) :
    Watched n p s false b' := by
  have hp := h.peer_eq
  have hn := h.nic_eq
  refine ⟨congrArg Peer.nic hp, congrArg Peer.signal hp, ?_, fun _ => ?_, fun _ => Or.inr ?_⟩
  · rw [hn]
  · rw [hn]
    exact hnil
  · rw [hn]
    exact hnil

/-! ## Rounds -/

/-- Looking at the signal begins a round, or finds that there is nothing to collect. -/
theorem Watched.looked (h : Watched n p s false b) :
    Watched n p s (b.takeSignal s).2 (b.takeSignal s).1 := by
  refine ⟨h.nic_eq, h.signal_eq, h.hook, h.down, ?_⟩
  intro hno
  have hs : (b.signal s).isPending = false := hno
  rcases h.heard rfl with hp | hnil
  · rw [hs] at hp
    cases hp
  · exact Or.inr hnil

/-- The wire stops early only if the ring is empty, or nothing can be taken from it. -/
theorem drain_short {sink : Sink γ} {budget : Nat} {x : Bench × γ}
    (h : (drain n budget sink x).2 < budget)
    (hd : ((drain n budget sink x).1.1.nic n).gate.phase.canDrain = true) :
    ((drain n budget sink x).1.1.nic n).tx.toList = [] :=
  ring_pump_of_short (i := .transmit) h hd

/-- A peer that polls. -/
theorem pollPeer_eq (hp : (b.peer p).nic = n) (budget : Nat) (wire : Sink γ) (g : γ) :
    (pollPeer p budget wire (b, g)).2 = (drain n budget (collecting p wire) (b, g)).2 ∧
      Announced (drain n budget (collecting p wire) (b, g)).1.1
        (pollPeer p budget wire (b, g)).1.1 ∧
      (pollPeer p budget wire (b, g)).1.1.nics =
        (drain n budget (collecting p wire) (b, g)).1.1.nics := by
  unfold pollPeer
  dsimp only
  rw [hp]
  generalize drain n budget (collecting p wire) (b, g) = x
  split
  · exact ⟨rfl, ((Announced.refl _).record _).countPeer p _, rfl⟩
  · exact ⟨rfl, .refl _, rfl⟩

/-- One poll of a round.  It is the last one if it stays below its budget. -/
theorem Watched.polled {wire : Sink γ} (h : Watched n p s true b) (budget : Nat)
    (hw : Working wire) (g : γ) :
    Watched n p s (!decide ((pollPeer p budget wire (b, g)).2 < budget))
      (pollPeer p budget wire (b, g)).1.1 := by
  obtain ⟨hk, ha, hn⟩ := pollPeer_eq h.nic_eq budget wire g
  have hd : Watched n p s true (drain n budget (collecting p wire) (b, g)).1.1 := by
    refine pump_invariant (P := fun x => Watched n p s true x.1) ?_ ?_ budget h
    · intro b' _ hb _
      exact hb.announced (announced_take b' n .transmit)
    · intro b' g' f hb _
      have ht := hb.announced (announced_take b' n .transmit)
      have hc := ht.announced ((Announced.refl _).countPeer p (·.received f.length))
      exact hc.announced (announced_of_busy (hw f _ g'))
  have hend := hd.announced ha
  refine ⟨hend.nic_eq, hend.signal_eq, hend.hook, hend.down, fun hlast => Or.inr ?_⟩
  have hlt : (drain n budget (collecting p wire) (b, g)).2 < budget := by
    rw [← hk]
    simpa using hlast
  rw [nic, hn, ← nic]
  cases hdown : ((drain n budget (collecting p wire) (b, g)).1.1.nic n).gate.phase.canDrain with
  | true => exact drain_short hlt hdown
  | false => exact hd.down hdown

/-! ## Runs of a wire loop -/

theorem Watched.wireStep {x : Bool × Bench} (h : Watched n p s inRound b)
    (hs : WireStep p (inRound, b) x) : Watched n p s x.1 x.2 := by
  cases hs with
  | busy _ hb => exact h.announced hb.announced
  | looked =>
    have hl := h.looked
    rwa [← h.signal_eq] at hl ⊢
  | polled _ budget wire g _ hw => exact h.polled budget hw g

theorem Watched.run {x y : Bool × Bench} (h : Watched n p s x.1 x.2)
    (hr : Relation.ReflTransGen (WireStep p) x y) : Watched n p s y.1 y.2 := by
  induction hr with
  | refl => exact h
  | tail _ hs ih => exact ih.wireStep hs

/-- **No frame is left behind for the wire.**  Attach a peer to a card whose transmit ring
is empty, and let anything be sent and any card be brought up or down, while the wire runs
its rounds.  Whenever no round is in progress and the peer's signal is clear, the transmit
ring is empty. -/
theorem tx_empty_of_clear {b₀ b₁ : Bench} (hnil : (b₀.nic n).tx.toList = [])
    (ha : b₀.attachPeer n = (p, b₁))
    (hr : Relation.ReflTransGen (WireStep p) (false, b₁) (false, b))
    (hclear : (b.signal (b₁.peer p).signal).isPending = false) : (b.nic n).tx.toList = [] := by
  obtain ⟨s, hs⟩ := b₀.plugs_attachPeer n
  rw [ha] at hs
  have h : Watched n p s false b := (hs.watched hnil).run hr
  rw [hs.peer_eq] at hclear
  rcases h.heard rfl with hp | hempty
  · rw [hclear] at hp
    cases hp
  · exact hempty

/-- A wire that answers every frame with one more, from its side of the card. -/
def echoing (n : Handle Nic) (answer : Frame) : Sink Nat := fun _ (b, left) =>
  if left = 0 then (b, 0) else ((b.transmit n answer).1, left - 1)

theorem working_echoing (n : Handle Nic) (answer : Frame) : Working (echoing n answer) := by
  intro f b left
  unfold echoing
  dsimp only
  split
  · exact .refl
  · exact .single (.card b n (.transmit answer))

/-- A round that goes on, and one that ends. -/
theorem WireStep.of_flag {r : Bool} {x : Bool × Bench} (h : WireStep p x (r, b')) {q : Bool}
    (hq : r = q) : WireStep p x (q, b') :=
  hq ▸ h

/-- A card with a peer is brought up and sends two frames.  The wire finds the signal
pending; its first poll takes as many frames as it may and has one more queued, so it
polls again.  That raised the signal once more, and the next round finds nothing. -/
theorem tx_empty_of_clear_echoing :
    ∃ b₀ b₁ b : Bench, (b₀.nic ⟨0⟩).tx.toList = [] ∧ b₀.attachPeer ⟨0⟩ = (⟨0⟩, b₁) ∧
      Relation.ReflTransGen (WireStep ⟨0⟩) (false, b₁) (false, b) ∧
      (b.signal (b₁.peer ⟨0⟩).signal).isPending = false ∧ (b.nic ⟨0⟩).tx.toList = [] := by
  let x : Nic := { tx := .vacant 4 (by decide) (by decide), rx := default }
  let b₀ : Bench := (default : Bench).addNic x |>.2
  let b₁ : Bench := (b₀.attachPeer ⟨0⟩).2
  let b₂ := b₁.bringUp ⟨0⟩
  let b₃ := (b₂.transmit ⟨0⟩ ⟨[1]⟩).1
  let b₄ := (b₃.transmit ⟨0⟩ ⟨[2]⟩).1
  let b₅ := (b₄.takeSignal (b₄.peer ⟨0⟩).signal).1
  let wire := echoing ⟨0⟩ ⟨[3]⟩
  let b₆ := (pollPeer ⟨0⟩ 1 wire (b₅, 1)).1.1
  let b₇ := (pollPeer ⟨0⟩ 3 wire (b₆, 0)).1.1
  let b₈ := (b₇.takeSignal (b₇.peer ⟨0⟩).signal).1
  let b₉ := (pollPeer ⟨0⟩ 1 wire (b₈, 0)).1.1
  have hw : Working wire := working_echoing _ _
  have up : WireStep ⟨0⟩ (false, b₁) (false, b₂) := .busy false (.card b₁ ⟨0⟩ .bringUp)
  have one : WireStep ⟨0⟩ (false, b₂) (false, b₃) := .busy false (.card b₂ ⟨0⟩ (.transmit ⟨[1]⟩))
  have two : WireStep ⟨0⟩ (false, b₃) (false, b₄) := .busy false (.card b₃ ⟨0⟩ (.transmit ⟨[2]⟩))
  have first : WireStep ⟨0⟩ (false, b₄) (true, b₅) :=
    (WireStep.looked b₄).of_flag (by decide +kernel)
  have full : WireStep ⟨0⟩ (true, b₅) (true, b₆) :=
    (WireStep.polled b₅ 1 wire 1 (by decide) hw).of_flag (by decide +kernel)
  have short : WireStep ⟨0⟩ (true, b₆) (false, b₇) :=
    (WireStep.polled b₆ 3 wire 0 (by decide) hw).of_flag (by decide +kernel)
  have again : WireStep ⟨0⟩ (false, b₇) (true, b₈) :=
    (WireStep.looked b₇).of_flag (by decide +kernel)
  have last : WireStep ⟨0⟩ (true, b₈) (false, b₉) :=
    (WireStep.polled b₈ 1 wire 0 (by decide) hw).of_flag (by decide +kernel)
  have run : Relation.ReflTransGen (WireStep ⟨0⟩) (false, b₁) (false, b₉) :=
    .trans (.tail (.tail (.tail (.tail (.single up) one) two) first) full)
      (.tail (.tail (.single short) again) last)
  have hnil : (b₀.nic ⟨0⟩).tx.toList = [] := by decide +kernel
  have hclear : (b₉.signal (b₁.peer ⟨0⟩).signal).isPending = false := by decide +kernel
  exact ⟨b₀, b₁, b₉, hnil, rfl, run, hclear, tx_empty_of_clear hnil rfl run hclear⟩

end Bench
end SoftNic
