import SoftNic.Proofs.TransmitWakeup

/-! # False alarms

A poll that finds nothing counts as a failed reception, and it is not asked why there is
nothing.  A reset that released what was queued is one reason.  No card of this module is ever
reset, and still there are such polls, also by a wire that polls on a signal only.  The wire
looks at the signal, and before it polls one more frame is queued; the poll collects that
frame too, but the frame has raised the signal again, and the poll that answers it comes in
vain.

Each frame that is queued between a look and its poll pays for one poll in vain at most, and
nothing else does (`Vigil.Fair`).  **`vain_le_late` counts them**: where the wire polls before
anything else is queued, every poll collects a frame and no reception fails; and whatever was
queued has been collected or still waits, in every case.
-/
namespace SoftNic

/-- What is done to a card and leaves alone what it has queued for the wire: shutting it down,
arming and masking it, and whatever concerns reception. -/
def CardOp.SparesQueue : CardOp → Prop
  | .setUp => False
  | .bringUp => False
  | .tearDown => False
  | .transmit _ => False
  | .take .transmit => False
  | _ => True

namespace Bench

variable {n m : Handle Nic} {p : Handle Peer} {s : Handle Signal} {b b' b'' : Bench}
  {held : List Frame}

/-! ## What stays -/

/-- What a peer relies on stays: its cable, its hook and its signal, and whether frames can be
taken from the card. -/
structure Stays (n : Handle Nic) (p : Handle Peer) (s : Handle Signal) (b b' : Bench) : Prop where
  nic_eq : (b'.peer p).nic = (b.peer p).nic
  signal_eq : (b'.peer p).signal = (b.peer p).signal
  hook : (b'.nic n).hook = (b.nic n).hook
  canDrain : (b'.nic n).gate.phase.canDrain = (b.nic n).gate.phase.canDrain
  pending : (b'.signal s).isPending = (b.signal s).isPending

/-- So does what is queued for the wire, and no reception has failed. -/
structure Apart (n : Handle Nic) (p : Handle Peer) (s : Handle Signal) (b b' : Bench) : Prop
    extends Stays n p s b b' where
  tx : (b'.nic n).tx.toList = (b.nic n).tx.toList
  failures : (b'.peer p).counters.rxErrors = (b.peer p).counters.rxErrors

theorem Stays.trans (h : Stays n p s b b') (k : Stays n p s b' b'') : Stays n p s b b'' where
  nic_eq := k.nic_eq.trans h.nic_eq
  signal_eq := k.signal_eq.trans h.signal_eq
  hook := k.hook.trans h.hook
  canDrain := k.canDrain.trans h.canDrain
  pending := k.pending.trans h.pending

/-- An operation on one card leaves the peers alone. -/
theorem AtCard.stays (h : AtCard m b b') (hk : (b'.nic n).hook = (b.nic n).hook)
    (hg : (b'.nic n).gate.phase.canDrain = (b.nic n).gate.phase.canDrain)
    (hs : (b'.signal s).isPending = (b.signal s).isPending) : Stays n p s b b' := by
  have hp := h.peer_eq p
  exact ⟨by rw [hp], by rw [hp], hk, hg, hs⟩

theorem AtCard.apart (h : AtCard m b b') (hk : (b'.nic n).hook = (b.nic n).hook)
    (hg : (b'.nic n).gate.phase.canDrain = (b.nic n).gate.phase.canDrain)
    (ht : (b'.nic n).tx.toList = (b.nic n).tx.toList)
    (hs : (b'.signal s).isPending = (b.signal s).isPending) : Apart n p s b b' :=
  ⟨h.stays hk hg hs, ht, by rw [h.peer_eq p]⟩

theorem stays_take (n : Handle Nic) (p : Handle Peer) (s : Handle Signal) (b : Bench) :
    Stays n p s b (b.take n .transmit).1 := by
  have ho := onlyCard_take b n .transmit
  have hc := b.take_control n .transmit
  exact ho.atCard.stays hc.hook (by rw [hc.gate]) (by rw [ho.signal_eq])

theorem stays_countPeer (n : Handle Nic) (p : Handle Peer) (s : Handle Signal) (b : Bench)
    (f : Counters → Counters) : Stays n p s b (b.countPeer p f) :=
  ⟨nic_peer_countPeer .., by rw [peer_countPeer_self], rfl, rfl, rfl⟩

/-- **What happens apart**: anything on another card, and what spares the queue on this one,
if no handler raises the peer's signal. -/
theorem apart_cardStep {op : CardOp} (hop : m ≠ n ∨ op.SparesQueue)
    (hs : ((cardStep m b op).signal s).isPending = (b.signal s).isPending) :
    Apart n p s b (cardStep m b op) := by
  have hat := atCard_cardStep m b op
  by_cases hm : n = m
  · subst hm
    have hop := hop.resolve_left (absurd rfl)
    cases op with
    | setUp => exact hop.elim
    | bringUp => exact hop.elim
    | tearDown => exact hop.elim
    | transmit f => exact hop.elim
    | shutDown =>
      have hn : (cardStep n b .shutDown).nic n = { b.nic n with gate := (b.nic n).gate.shut } :=
        b.nic_shutDown n
      refine hat.apart (by rw [hn]) ?_ (by rw [hn]) hs
      rw [hn]
      obtain ⟨phase, armed⟩ := (b.nic n).gate
      cases phase <;> rfl
    | rearm =>
      have hi := interrupted_rearm b n
      exact hat.apart hi.hook_eq (congrArg Phase.canDrain hi.phase_eq)
        (congrArg Ring.toList (hi.ring_eq .transmit)) hs
    | mask =>
      have hi := interrupted_modifyGate n b false
      exact hat.apart hi.hook_eq (congrArg Phase.canDrain hi.phase_eq)
        (congrArg Ring.toList (hi.ring_eq .transmit)) hs
    | removeHandler =>
      have hn : (cardStep n b .removeHandler).nic n = { b.nic n with handler := none } :=
        nic_removeHandler b n
      exact hat.apart (by rw [hn]) (by rw [hn]) (by rw [hn]) hs
    | deliver f =>
      have hc := b.accept_control n .receive f
      have hi := (b.deliver_eq n f).2
      have hr := ring_accept_of_ne (d := .receive) (e := .transmit) nofun b n f
      exact hat.apart (hi.hook_eq.trans hc.hook)
        (congrArg Phase.canDrain (hi.phase_eq.trans (congrArg Gate.phase hc.gate)))
        (congrArg Ring.toList ((hi.ring_eq .transmit).trans hr)) hs
    | take i =>
      cases i with
      | transmit => exact hop.elim
      | receive =>
        have hc := b.take_control n .receive
        refine hat.apart hc.hook (congrArg (·.phase.canDrain) hc.gate) ?_ hs
        rcases b.take_cases n .receive with ⟨-, ht⟩ | ⟨-, f, r, -, -, hn⟩
        · exact congrArg (fun x => (x.1.nic n).tx.toList) ht
        · exact congrArg (·.tx.toList) hn
  · have hn := hat.nic n hm
    exact hat.apart (congrArg Nic.hook hn) (congrArg (·.gate.phase.canDrain) hn)
      (congrArg (·.tx.toList) hn) hs

/-! ## Collecting -/

/-- What a poll with a wire that only collects comes to: the wire gets the front of the ring,
and a poll that finds nothing is a reception that failed. -/
structure Collects (n : Handle Nic) (p : Handle Peer) (s : Handle Signal) (budget : Nat)
    (gs : List Frame) (b : Bench) (r : (Bench × List Frame) × Nat) : Prop
    extends Stays n p s b r.1.1 where
  count : r.2 = min budget (b.nic n).tx.toList.length
  frames : r.1.2 = gs ++ (b.nic n).tx.toList.take budget
  tx : (r.1.1.nic n).tx.toList = (b.nic n).tx.toList.drop budget
  failures : (r.1.1.peer p).counters.rxErrors =
    (b.peer p).counters.rxErrors + UInt64.ofNat (if r.2 = 0 then 1 else 0)

theorem pollPeer_gather (hn : (b.peer p).nic = n) (hd : (b.nic n).gate.phase.canDrain = true)
    (s : Handle Signal) {budget : Nat} (hb : 1 ≤ budget) (gs : List Frame) :
    Collects n p s budget gs b (pollPeer p budget gather (b, gs)) := by
  -- What the drain leaves, told with the frames that were handed over so far.
  let P : List Frame → Bench × List Frame → Prop := fun fs y => Stays n p s b y.1 ∧
    (y.1.peer p).counters.rxErrors = (b.peer p).counters.rxErrors ∧ y.2 = gs ++ fs
  have hstart : P [] (b, gs) := ⟨⟨rfl, rfl, rfl, rfl, rfl⟩, rfl, (List.append_nil gs).symm⟩
  have hstep : ∀ fs f b' g, P fs (b', g) → (b'.take n .transmit).2 = some f →
      P (fs ++ [f]) (collecting p gather f ((b'.take n .transmit).1, g)) := by
    rintro fs f b' g ⟨hs, he, hg⟩ -
    have hc := stays_countPeer n p s (b'.take n .transmit).1 (·.received f.length)
    refine ⟨(hs.trans (stays_take n p s b')).trans hc, ?_, ?_⟩
    · have hp : (b'.take n .transmit).1.peer p = b'.peer p :=
        (onlyCard_take b' n .transmit).atCard.peer_eq p
      refine Eq.trans ?_ he
      show ((countPeer _ p _).peer p).counters.rxErrors = _
      rw [peer_countPeer_self, hp]
      rfl
    · exact (congrArg (· ++ [f]) hg).trans (List.append_assoc gs fs [f])
  have hend := pump_of_ring_kept (i := .transmit) (collecting p gather) P hstart
    (fun _ _ => ⟨rfl, rfl⟩) hstep (fun h => by rw [hd] at h; cases h) budget
  unfold pollPeer drain
  dsimp only
  rw [hn]
  generalize pump (·.take n .transmit) (collecting p gather) budget (b, gs) = r at hend
  obtain ⟨hk, ht, hs, he, hg⟩ := hend
  split
  · next hz =>
    have hcount :=
      stays_countPeer n p s (r.1.1.record (.peer p .foundNothing)) Counters.receiveFailed
    refine ⟨hs.trans ⟨hcount.nic_eq, hcount.signal_eq, rfl, rfl, rfl⟩, hk, hg, ht, ?_⟩
    dsimp only
    rw [if_pos hz.1, ← he, peer_countPeer_self]
    rfl
  · next hz =>
    have hne : r.2 ≠ 0 := fun h => hz ⟨h, hb⟩
    refine ⟨hs, hk, hg, ht, ?_⟩
    dsimp only
    rw [if_neg hne, he]
    simp

/-! ## A wire that looks and polls -/

/-- A bench, and what a wire has seen of it since its peer was attached. -/
structure Vigil where
  bench : Bench
  /-- How often the signal was found pending and has not been answered by a poll yet. -/
  owed : Nat := 0
  /-- How many frames were queued while a poll was owed. -/
  late : Nat := 0
  /-- How many polls found nothing. -/
  vain : Nat := 0
  /-- What was queued, oldest first. -/
  accepted : List Frame := []
  /-- What was collected, oldest first. -/
  collected : List Frame := []

namespace Vigil

/-- The driver hands a frame over to be sent. -/
def send (n : Handle Nic) (f : Frame) (x : Vigil) : Vigil :=
  match x.bench.transmit n f with
  | (b, .ok ()) =>
    { x with
      bench := b, late := x.late + (if 0 < x.owed then 1 else 0), accepted := x.accepted ++ [f] }
  | (b, .error _) => { x with bench := b }

/-- The wire looks at the signal of its peer. -/
def look (p : Handle Peer) (x : Vigil) : Vigil :=
  let (b, found) := x.bench.takeSignal (x.bench.peer p).signal
  { x with bench := b, owed := x.owed + found.toNat }

/-- The wire polls, and keeps what it collects. -/
def poll (p : Handle Peer) (budget : Nat) (x : Vigil) : Vigil :=
  let ((b, fs), k) := pollPeer p budget gather (x.bench, x.collected)
  { x with
    bench := b, owed := x.owed - 1, vain := x.vain + (if k = 0 then 1 else 0), collected := fs }

/-- The wire polls only once each time that it has found the signal pending; frames are queued
at any time. -/
inductive Step (n : Handle Nic) (p : Handle Peer) (s : Handle Signal) : Vigil → Vigil → Prop
  | sent (x : Vigil) (f : Frame) : Step n p s x (x.send n f)
  | looked (x : Vigil) : Step n p s x (x.look p)
  | polled (x : Vigil) (budget : Nat) (ho : 0 < x.owed) (hb : 1 ≤ budget) :
    Step n p s x (x.poll p budget)
  | apart (x : Vigil) {b : Bench} (h : Apart n p s x.bench b) : Step n p s x { x with bench := b }

/-- **Late frames pay for polls in vain.**  A poll that is owed, a signal that is pending and a
poll in vain have each cost a late frame, but for the one that the queue itself pays for. -/
structure Fair (n : Handle Nic) (p : Handle Peer) (s : Handle Signal) (held : List Frame)
    (x : Vigil) : Prop where
  nic_eq : (x.bench.peer p).nic = n
  signal_eq : (x.bench.peer p).signal = s
  hook : (x.bench.nic n).hook = some s
  canDrain : (x.bench.nic n).gate.phase.canDrain = true
  frames : held ++ x.accepted = x.collected ++ (x.bench.nic n).tx.toList
  failures : (x.bench.peer p).counters.rxErrors = UInt64.ofNat x.vain
  vain_le : x.vain ≤ x.late
  paid : x.vain + x.owed + (x.bench.signal s).isPending.toNat ≤
    x.late + min 1 (x.bench.nic n).tx.toList.length

namespace Fair

variable {x y : Vigil}

/-- Whatever happens apart costs nothing. -/
theorem apart (h : Fair n p s held x) {b : Bench} (hb : Apart n p s x.bench b) :
    Fair n p s held { x with bench := b } where
  nic_eq := hb.nic_eq.trans h.nic_eq
  signal_eq := hb.signal_eq.trans h.signal_eq
  hook := hb.hook.trans h.hook
  canDrain := hb.canDrain.trans h.canDrain
  frames := by
    rw [hb.tx]
    exact h.frames
  failures := hb.failures.trans h.failures
  vain_le := h.vain_le
  paid := by
    rw [hb.tx, hb.pending]
    exact h.paid

/-- A frame that is refused is not queued, and nobody hears of it. -/
theorem send_of_error {f : Frame} {r : Rejection} (h : Fair n p s held x)
    (hf : (x.bench.accept n .transmit f).2 = .error r) : Fair n p s held (x.send n f) := by
  have hx : x.send n f = { x with bench := (x.bench.accept n .transmit f).1 } := by
    rw [send, transmit_of_error hf,
      show x.bench.accept n .transmit f = ((x.bench.accept n .transmit f).1, .error r) from
        Prod.ext rfl hf]
  have ho := onlyCard_accept x.bench n .transmit f
  have hc := x.bench.accept_control n .transmit f
  rw [hx]
  refine h.apart (ho.atCard.apart hc.hook (by rw [hc.gate]) ?_ (by rw [ho.signal_eq]))
  rcases x.bench.accept_cases n .transmit f with ⟨-, -, hn⟩ | ⟨-, -, -, hn⟩ | ⟨-, ha, -⟩
  · rw [hn]
    rfl
  · rw [hn]
    rfl
  · rw [hf] at ha
    cases ha

/-- A frame that is queued raises the signal; it is late if a poll is owed. -/
theorem send_of_ok {f : Frame} (h : Fair n p s held x)
    (hf : (x.bench.accept n .transmit f).2 = .ok ()) : Fair n p s held (x.send n f) := by
  have ho := onlyCard_accept x.bench n .transmit f
  have hc := x.bench.accept_control n .transmit f
  have htx := toList_ring_accept hf
  have hx : x.send n f = { x with
      bench := (x.bench.accept n .transmit f).1.raise s
      late := x.late + (if 0 < x.owed then 1 else 0)
      accepted := x.accepted ++ [f] } := by
    rw [send, transmit_of_ok hf, raiseHook_of_some (hc.hook.trans h.hook)]
  have hpeer : ((x.bench.accept n .transmit f).1.raise s).peer p = x.bench.peer p :=
    ho.atCard.peer_eq p
  have hlate := h.vain_le
  have hpaid := h.paid
  rw [hx]
  constructor
  case nic_eq => exact (congrArg Peer.nic hpeer).trans h.nic_eq
  case signal_eq => exact (congrArg Peer.signal hpeer).trans h.signal_eq
  case hook => exact hc.hook.trans h.hook
  case canDrain => exact (congrArg (·.phase.canDrain) hc.gate).trans h.canDrain
  case frames =>
    show held ++ (x.accepted ++ [f]) =
      x.collected ++ ((x.bench.accept n .transmit f).1.nic n).tx.toList
    rw [show ((x.bench.accept n .transmit f).1.nic n).tx.toList = _ from htx,
      ← List.append_assoc, h.frames, List.append_assoc]
    rfl
  case failures => exact (congrArg (·.counters.rxErrors) hpeer).trans h.failures
  case vain_le => exact Nat.le_add_right_of_le hlate
  case paid =>
    -- If a poll is owed, the frame is late and pays for its signal; if none is, the queue pays.
    have hlen : ((x.bench.accept n .transmit f).1.nic n).tx.toList.length =
        (x.bench.nic n).tx.toList.length + 1 := by
      rw [show ((x.bench.accept n .transmit f).1.nic n).tx.toList = _ from htx]
      exact List.length_append
    show x.vain + x.owed + (((x.bench.accept n .transmit f).1.raise s).signal s).isPending.toNat ≤
      x.late + (if 0 < x.owed then 1 else 0) +
        min 1 ((x.bench.accept n .transmit f).1.nic n).tx.toList.length
    rw [isPending_raise, hlen, Bool.toNat_true]
    split <;> omega

theorem send (h : Fair n p s held x) (f : Frame) : Fair n p s held (x.send n f) := by
  cases hf : (x.bench.accept n .transmit f).2 with
  | ok => exact h.send_of_ok hf
  | error r => exact h.send_of_error hf

/-- A signal that is found pending becomes a poll that is owed. -/
theorem look (h : Fair n p s held x) : Fair n p s held (x.look p) := by
  have hpaid := h.paid
  have hclear := (x.bench.takeSignal_spec s).2.1
  unfold Vigil.look
  rw [h.signal_eq]
  refine ⟨h.nic_eq, h.signal_eq, h.hook, h.canDrain, h.frames, h.failures, h.vain_le, ?_⟩
  show x.vain + (x.owed + (x.bench.signal s).isPending.toNat) +
    ((x.bench.takeSignal s).1.signal s).isPending.toNat ≤ _
  rw [hclear, Bool.toNat_false, Nat.add_zero, ← Nat.add_assoc]
  exact hpaid

/-- A poll answers one look.  If it finds nothing, the queue has not paid for it. -/
theorem poll (h : Fair n p s held x) {budget : Nat} (ho : 0 < x.owed) (hb : 1 ≤ budget) :
    Fair n p s held (x.poll p budget) := by
  have hc := pollPeer_gather h.nic_eq h.canDrain s hb x.collected
  have hcount := hc.count
  have hlate := h.vain_le
  have hpaid := h.paid
  unfold Vigil.poll
  generalize pollPeer p budget gather (x.bench, x.collected) = r at hc hcount
  constructor
  case nic_eq => exact hc.nic_eq.trans h.nic_eq
  case signal_eq => exact hc.signal_eq.trans h.signal_eq
  case hook => exact hc.hook.trans h.hook
  case canDrain => exact hc.canDrain.trans h.canDrain
  case frames =>
    dsimp only
    rw [hc.frames, hc.tx, List.append_assoc, List.take_append_drop]
    exact h.frames
  case failures =>
    dsimp only
    rw [hc.failures, h.failures, ← UInt64.ofNat_add]
  case vain_le =>
    dsimp only
    split <;> omega
  case paid =>
    have hlen := congrArg List.length hc.tx
    rw [List.length_drop] at hlen
    dsimp only
    rw [hc.pending, hlen]
    split <;> omega

theorem step (h : Fair n p s held x) (hs : Step n p s x y) : Fair n p s held y := by
  cases hs with
  | sent f => exact h.send f
  | looked => exact h.look
  | polled budget ho hb => exact h.poll ho hb
  | apart hb => exact h.apart hb

theorem run (h : Fair n p s held x) (hr : Relation.ReflTransGen (Step n p s) x y) :
    Fair n p s held y := by
  induction hr with
  | refl => exact h
  | tail _ hs ih => exact ih.step hs

end Fair
end Vigil

/-- A peer that was just attached has nothing to pay for. -/
theorem Plugs.fair (h : Plugs n p s b b') (hd : (b.nic n).gate.phase.canDrain = true) :
    Vigil.Fair n p s (b.nic n).tx.toList { bench := b' } := by
  have hp := h.peer_eq
  have hn := h.nic_eq
  have hs : b'.signal s = .flag false := by
    obtain ⟨rfl, hs⟩ := Prod.mk.inj h.signals
    rw [signal, ← hs]
    exact b.signals.get_add_self _
  constructor
  case nic_eq => exact congrArg Peer.nic hp
  case signal_eq => exact congrArg Peer.signal hp
  case hook => rw [hn]
  case canDrain =>
    rw [hn]
    exact hd
  case frames =>
    rw [hn]
    exact List.append_nil _
  case failures =>
    rw [hp]
    rfl
  case vain_le => exact Nat.le_refl 0
  case paid =>
    dsimp only
    rw [hs]
    exact Nat.zero_le _

/-! ## Polls in vain -/

/-- **At most one poll in vain for each late frame.**  Attach a peer to a ready card and let
its wire look at the signal and answer each look that finds it pending with one poll, while
frames are queued at any time and the rings are never reset.  The receptions that failed are
the polls in vain, and there are no more of them than frames that were queued between a look
and its poll.  A poll collects what its budget allows of what is queued, and everything that
was queued has been collected or still waits.  If no frame was late, no reception has failed
and every poll that is owed collects a frame. -/
theorem vain_le_late {b₀ b₁ : Bench} (hready : (b₀.nic n).gate.isReady = true)
    (ha : b₀.attachPeer n = (p, b₁)) {x : Vigil}
    (hr : Relation.ReflTransGen (Vigil.Step n p (b₁.peer p).signal) { bench := b₁ } x) :
    (x.bench.peer p).counters.rxErrors = UInt64.ofNat x.vain ∧ x.vain ≤ x.late ∧
      (b₀.nic n).tx.toList ++ x.accepted = x.collected ++ (x.bench.nic n).tx.toList ∧
      (∀ budget, 1 ≤ budget → (pollPeer p budget gather (x.bench, [])).2 =
        min budget (x.bench.nic n).tx.toList.length) ∧
      (x.late = 0 → (x.bench.peer p).counters.rxErrors = 0 ∧
        (0 < x.owed → ∀ budget, 1 ≤ budget →
          1 ≤ (pollPeer p budget gather (x.bench, [])).2)) := by
  have hd : (b₀.nic n).gate.phase.canDrain = true := by
    rw [show (b₀.nic n).gate.phase = .ready by simpa [Gate.isReady] using hready]
    rfl
  obtain ⟨s, hs⟩ := b₀.plugs_attachPeer n
  rw [ha] at hs
  rw [show (b₁.peer p).signal = s by rw [hs.peer_eq]] at hr
  have h := (hs.fair hd).run hr
  have hcount : ∀ budget, 1 ≤ budget → (pollPeer p budget gather (x.bench, [])).2 =
      min budget (x.bench.nic n).tx.toList.length := fun budget hb =>
    (pollPeer_gather h.nic_eq h.canDrain s hb []).count
  refine ⟨h.failures, h.vain_le, h.frames, hcount, fun hlate => ⟨?_, fun ho budget hb => ?_⟩⟩
  · have hvain := h.vain_le
    rw [hlate] at hvain
    rw [h.failures, Nat.le_zero.mp hvain]
    rfl
  · have hpaid := h.paid
    rw [hcount budget hb]
    omega

/-- A bench with one card that was just brought up. -/
def freshCard : Bench :=
  let x : Nic := { tx := .vacant 4 (by decide) (by decide), rx := default }
  ((default : Bench).addNic x).2.bringUp ⟨0⟩

theorem attachPeer_freshCard :
    freshCard.attachPeer ⟨0⟩ = (⟨0⟩, (freshCard.attachPeer ⟨0⟩).2) :=
  Prod.ext (by decide +kernel) rfl

theorem isReady_freshCard : (freshCard.nic ⟨0⟩).gate.isReady = true := by
  decide +kernel

/-- Two frames, each collected before the next is queued; in between one is received. -/
theorem vain_le_late_answered : ∃ (b₀ b₁ : Bench) (x : Vigil), (b₀.nic ⟨0⟩).gate.isReady = true ∧
    b₀.attachPeer ⟨0⟩ = (⟨0⟩, b₁) ∧
    Relation.ReflTransGen (Vigil.Step ⟨0⟩ ⟨0⟩ (b₁.peer ⟨0⟩).signal) { bench := b₁ } x ∧
    x.late = 0 ∧ (x.bench.peer ⟨0⟩).counters.rxErrors = 0 ∧
    1 ≤ (pollPeer ⟨0⟩ 8 gather (x.bench, [])).2 := by
  let b₁ : Bench := (freshCard.attachPeer ⟨0⟩).2
  let x₀ : Vigil := { bench := b₁ }
  let x₁ := ((x₀.send ⟨0⟩ ⟨[1]⟩).look ⟨0⟩).poll ⟨0⟩ 8
  let b₂ := cardStep ⟨0⟩ x₁.bench (.deliver ⟨[3]⟩)
  let x₂ := (({ x₁ with bench := b₂ } : Vigil).send ⟨0⟩ ⟨[2]⟩).look ⟨0⟩
  have first : Relation.ReflTransGen (Vigil.Step ⟨0⟩ ⟨0⟩ (b₁.peer ⟨0⟩).signal) x₀ x₁ :=
    .tail (.tail (.single (.sent _ _)) (.looked _)) (.polled _ _ (by decide +kernel) (by decide))
  have hapart : Apart ⟨0⟩ ⟨0⟩ (b₁.peer ⟨0⟩).signal x₁.bench b₂ :=
    apart_cardStep (Or.inr trivial) (by decide +kernel)
  have run : Relation.ReflTransGen (Vigil.Step ⟨0⟩ ⟨0⟩ (b₁.peer ⟨0⟩).signal) x₀ x₂ :=
    .tail (.tail (.tail first (.apart x₁ hapart)) (.sent _ _)) (.looked _)
  have hlate : x₂.late = 0 := by decide +kernel
  have howed : 0 < x₂.owed := by decide +kernel
  obtain ⟨-, -, -, -, hall⟩ := vain_le_late isReady_freshCard attachPeer_freshCard run
  exact ⟨freshCard, b₁, x₂, isReady_freshCard, attachPeer_freshCard, run, hlate, (hall hlate).1,
    (hall hlate).2 howed 8 (by decide)⟩

/-- **A false alarm.**  One more frame is queued between the look and the poll.  The poll
collects both; the signal is pending again, and the poll that answers it is counted as a
reception that failed, though nothing was taken from the card but by the wire. -/
theorem false_alarm : ∃ (b₀ b₁ : Bench) (x : Vigil), (b₀.nic ⟨0⟩).gate.isReady = true ∧
    b₀.attachPeer ⟨0⟩ = (⟨0⟩, b₁) ∧
    Relation.ReflTransGen (Vigil.Step ⟨0⟩ ⟨0⟩ (b₁.peer ⟨0⟩).signal) { bench := b₁ } x ∧
    x.accepted = [⟨[1]⟩, ⟨[2]⟩] ∧ x.collected = [⟨[1]⟩, ⟨[2]⟩] ∧
    (x.bench.peer ⟨0⟩).counters.rxErrors = 1 := by
  let b₁ : Bench := (freshCard.attachPeer ⟨0⟩).2
  let x₀ : Vigil := { bench := b₁ }
  let x₁ := (((x₀.send ⟨0⟩ ⟨[1]⟩).look ⟨0⟩).send ⟨0⟩ ⟨[2]⟩).poll ⟨0⟩ 8
  let x₂ := (x₁.look ⟨0⟩).poll ⟨0⟩ 8
  have late : Relation.ReflTransGen (Vigil.Step ⟨0⟩ ⟨0⟩ (b₁.peer ⟨0⟩).signal) x₀ x₁ :=
    .tail (.tail (.tail (.single (.sent _ _)) (.looked _)) (.sent _ _))
      (.polled _ _ (by decide +kernel) (by decide))
  have run : Relation.ReflTransGen (Vigil.Step ⟨0⟩ ⟨0⟩ (b₁.peer ⟨0⟩).signal) x₀ x₂ :=
    .tail (.tail late (.looked _)) (.polled _ _ (by decide +kernel) (by decide))
  exact ⟨freshCard, b₁, x₂, isReady_freshCard, attachPeer_freshCard, run, by decide +kernel,
    by decide +kernel, by decide +kernel⟩

end Bench
end SoftNic
