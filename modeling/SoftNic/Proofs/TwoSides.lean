import Mathlib.Logic.Function.Iterate
import SoftNic.Proofs.Traffic

/-! # The two sides of a card

A card has a transmit side and a receive side.  They share a gate, a block of counters and
one record, and yet neither can tell what is done on the other: as long as the card is
neither brought up nor shut down, whatever is interleaved with the operations of one side
can be left out, and nothing changes for that side (`Bench.sides_independent`).

The proof runs the card twice, once with the operations of the other side and once
without.  What one side sees of a card is `Bench.SameSide`.  An operation of the other side
leaves it as it is (`Bench.sameSide_sideStep`).  An operation of the side itself reads
nothing else, so if it is done in both runs, it does the same and answers the same
(`Bench.Paired`); here the lemmas follow the operations line by line.  No operation asks
what a signal remembers, so the signals are left out of what a side sees.  Each is raised as
often as the journal says.
-/
namespace SoftNic

/-- The counters of one direction. -/
structure Counters.Half where
  packets : UInt64
  bytes : UInt64
  dropped : UInt64
  errors : UInt64
  deriving DecidableEq

namespace Counters

/-- The half of the counters that belongs to a direction. -/
def half (c : Counters) : Direction → Half
  | .transmit => ⟨c.txPackets, c.txBytes, c.txDropped, c.txErrors⟩
  | .receive => ⟨c.rxPackets, c.rxBytes, c.rxDropped, c.rxErrors⟩

namespace Half

/-- A frame of the given length was put into the ring. -/
def accepted (c : Half) (length : Nat) : Half :=
  { c with packets := c.packets + 1, bytes := c.bytes + UInt64.ofNat length }

/-- A frame was refused. -/
def refused (c : Half) : Half :=
  { c with dropped := c.dropped + 1 }

end Half
end Counters

/-- What is done on either side of a card. -/
inductive SideOp
  | transmit (f : Frame)
  | drain (budget : Nat)
  | setHook (s : Handle Signal)
  | clearHook
  | clearHookIf (s : Handle Signal)
  | deliver (f : Frame)
  | receive
  | rearm
  | mask
  | installHandler (actions : List HandlerAction)
  | removeHandler
  | schedule (c : Handle PollContext)
  | poll (c : Handle PollContext) (budget : Nat)
  deriving DecidableEq

namespace SideOp

/-- The side on which something is done. -/
def side : SideOp → Direction
  | transmit _ | drain _ | setHook _ | clearHook | clearHookIf _ => .transmit
  | deliver _ | receive | rearm | mask | installHandler _ | removeHandler | schedule _
  | poll _ _ => .receive

end SideOp

/-- What an operation answers, with the frames that it handed over. -/
inductive SideAnswer
  | done
  | offered (answer : Except Rejection Unit)
  | taken (frame : Option Frame)
  | asked (took : Bool)
  | drained (frames : List Frame) (count : Nat)
  | polled (frames : List Frame) (outcome : Except Fault Pass)

/-- What came of an operation. -/
structure SideReport where
  op : SideOp
  answer : SideAnswer
  /-- What was written down meanwhile, oldest event first: which handler ran, which signals
  were raised, what entered and left the rings. -/
  events : List Event

/-- Whether a signal was raised. -/
def Event.isRaise : Event → Bool
  | .raised _ => true
  | _ => false

namespace Nic

/-- Two cards are the same on one side. -/
structure SameSide (i : Direction) (x x' : Nic) : Prop where
  phase : x'.gate.phase = x.gate.phase
  ring : x'.ring i = x.ring i
  counters : x'.counters.half i = x.counters.half i
  hook : i = .transmit → x'.hook = x.hook
  armed : i = .receive → x'.gate.armed = x.gate.armed
  handler : i = .receive → x'.handler = x.handler

variable {i j : Direction} {x x' x'' : Nic}

@[simp] theorem half_setRing (x : Nic) (i j : Direction) (r : Ring Frame) :
    (x.setRing j r).counters.half i = x.counters.half i := by
  cases j <;> rfl

theorem half_countAccepted (x : Nic) (i : Direction) (k : Nat) :
    (x.countAccepted i k).counters.half i = (x.counters.half i).accepted k := by
  cases i <;> rfl

theorem half_countAccepted_of_ne (h : i ≠ j) (x : Nic) (k : Nat) :
    (x.countAccepted j k).counters.half i = x.counters.half i := by
  cases i <;> cases j <;> first | rfl | exact absurd rfl h

theorem half_countRefused (x : Nic) (i : Direction) :
    (x.countRefused i).counters.half i = (x.counters.half i).refused := by
  cases i <;> rfl

theorem half_countRefused_of_ne (h : i ≠ j) (x : Nic) :
    (x.countRefused j).counters.half i = x.counters.half i := by
  cases i <;> cases j <;> first | rfl | exact absurd rfl h

namespace SameSide

theorem refl (i : Direction) (x : Nic) : x.SameSide i x :=
  ⟨rfl, rfl, rfl, fun _ => rfl, fun _ => rfl, fun _ => rfl⟩

theorem trans (h : x.SameSide i x') (k : x'.SameSide i x'') : x.SameSide i x'' where
  phase := k.phase.trans h.phase
  ring := k.ring.trans h.ring
  counters := k.counters.trans h.counters
  hook hi := (k.hook hi).trans (h.hook hi)
  armed hi := (k.armed hi).trans (h.armed hi)
  handler hi := (k.handler hi).trans (h.handler hi)

theorem symm (h : x.SameSide i x') : x'.SameSide i x where
  phase := h.phase.symm
  ring := h.ring.symm
  counters := h.counters.symm
  hook hi := (h.hook hi).symm
  armed hi := (h.armed hi).symm
  handler hi := (h.handler hi).symm

/-- Rings and counters were changed on both cards. -/
theorem of_controls {y y' : Nic} (h : x.SameSide i x') (hy : x.SameControl y)
    (hy' : x'.SameControl y') (hr : y'.ring i = y.ring i)
    (hk : y'.counters.half i = y.counters.half i) : y.SameSide i y' where
  phase := by rw [hy.gate, hy'.gate, h.phase]
  ring := hr
  counters := hk
  hook hi := by rw [hy.hook, hy'.hook, h.hook hi]
  armed hi := by rw [hy.gate, hy'.gate, h.armed hi]
  handler hi := by rw [hy.handler, hy'.handler, h.handler hi]

/-- Only a ring and counters were changed. -/
theorem of_control (hc : x.SameControl x') (hr : x'.ring i = x.ring i)
    (hk : x'.counters.half i = x.counters.half i) : x.SameSide i x' :=
  (refl i x).of_controls ⟨rfl, rfl, rfl⟩ hc hr hk

theorem setRing (h : x.SameSide i x') (r : Ring Frame) :
    (x.setRing i r).SameSide i (x'.setRing i r) :=
  h.of_controls (sameControl_setRing ..) (sameControl_setRing ..)
    (by rw [ring_setRing_self, ring_setRing_self])
    (by rw [half_setRing, half_setRing, h.counters])

theorem countAccepted (h : x.SameSide i x') (k : Nat) :
    (x.countAccepted i k).SameSide i (x'.countAccepted i k) :=
  h.of_controls (sameControl_countAccepted ..) (sameControl_countAccepted ..)
    (by rw [ring_countAccepted, ring_countAccepted, h.ring])
    (by rw [half_countAccepted, half_countAccepted, h.counters])

theorem countRefused (h : x.SameSide i x') : (x.countRefused i).SameSide i (x'.countRefused i) :=
  h.of_controls (sameControl_countRefused ..) (sameControl_countRefused ..)
    (by rw [ring_countRefused, ring_countRefused, h.ring])
    (by rw [half_countRefused, half_countRefused, h.counters])

theorem isReady (h : x.SameSide i x') : x'.gate.isReady = x.gate.isReady := by
  rw [Gate.isReady, h.phase, Gate.isReady]

theorem setHook (h : x.SameSide .transmit x') (s : Option (Handle Signal)) :
    ({ x with hook := s } : Nic).SameSide .transmit { x' with hook := s } :=
  { h with hook := fun _ => rfl, armed := nofun, handler := nofun }

theorem setHandler (h : x.SameSide .receive x') (as : Option (List HandlerAction)) :
    ({ x with handler := as } : Nic).SameSide .receive { x' with handler := as } :=
  { h with hook := nofun, handler := fun _ => rfl }

theorem setArmed (h : x.SameSide .receive x') (armed : Bool) :
    ({ x with gate := { x.gate with armed } } : Nic).SameSide .receive
      { x' with gate := { x'.gate with armed } } :=
  { h with hook := nofun, armed := fun _ => rfl }

end SameSide
end Nic

namespace Bench

variable {i j : Direction} {n : Handle Nic} {b b' b'' o o' : Bench} {op : SideOp} {β : Type}

/-! ## Runs -/

/-- Do something on one side of a card. -/
def sideStep (b : Bench) (n : Handle Nic) : SideOp → Bench × SideAnswer
  | .transmit f =>
    let (b, a) := b.transmit n f
    (b, .offered a)
  | .drain budget =>
    let ((b, l), k) := drain n budget gather (b, [])
    (b, .drained l k)
  | .setHook s => (b.setHook n s, .done)
  | .clearHook => (b.clearHook n, .done)
  | .clearHookIf s => (b.clearHookIf n s, .done)
  | .deliver f =>
    let (b, a) := b.deliver n f
    (b, .offered a)
  | .receive =>
    let (b, f) := b.take n .receive
    (b, .taken f)
  | .rearm => (b.rearm n, .done)
  | .mask => (b.mask n, .done)
  | .installHandler as => (b.installHandler n as, .done)
  | .removeHandler => (b.removeHandler n, .done)
  | .schedule c =>
    let (b, q) := b.schedule c
    (b, .asked q)
  | .poll c budget =>
    let ((b, l), p) := poll c n budget gather (b, [])
    (b, .polled l p)

/-- What comes of that. -/
def sideReport (b : Bench) (n : Handle Nic) (op : SideOp) : SideReport where
  op
  answer := (b.sideStep n op).2
  events := (b.sideStep n op).1.eventsSince b.journal.length

/-- Do one thing after the other. -/
def runSides (n : Handle Nic) : List SideOp → Bench → Bench × List SideReport
  | [], b => (b, [])
  | op :: ops, b =>
    let (b', rs) := runSides n ops (b.sideStep n op).1
    (b', b.sideReport n op :: rs)

/-- How often a signal was raised, by these reports. -/
def raisedIn (t : Handle Signal) (rs : List SideReport) : Nat :=
  (rs.flatMap SideReport.events).count (.raised t)

/-- Two benches are the same for one side of a card.  The contexts are the receive side's:
nothing else asks them for a pass. -/
structure SameSide (i : Direction) (n : Handle Nic) (b b' : Bench) : Prop where
  card : (b.nic n).SameSide i (b'.nic n)
  contexts : i = .receive → b'.contexts = b.contexts

namespace SameSide

theorem refl (i : Direction) (n : Handle Nic) (b : Bench) : SameSide i n b b :=
  ⟨.refl i _, fun _ => rfl⟩

theorem trans (h : SameSide i n b b') (k : SameSide i n b' b'') : SameSide i n b b'' :=
  ⟨h.card.trans k.card, fun hi => (k.contexts hi).trans (h.contexts hi)⟩

theorem symm (h : SameSide i n b b') : SameSide i n b' b :=
  ⟨h.card.symm, fun hi => (h.contexts hi).symm⟩

theorem of_nics (hn : b'.nics = b.nics) (hc : b'.contexts = b.contexts) : SameSide i n b b' where
  card := by
    have hx : b'.nic n = b.nic n := congrArg (·.get n) hn
    rw [hx]
    exact .refl i _
  contexts _ := hc

end SameSide

/-! ## What the other side leaves alone -/

theorem OnlyCard.sameSide (h : OnlyCard n b b') (hn : (b.nic n).SameSide i (b'.nic n)) :
    SameSide i n b b' :=
  ⟨hn, fun _ => h.contexts⟩

/-- Handlers, contexts and the interrupt line are nothing to the transmit side. -/
theorem Interrupted.sameSide (h : Interrupted n b b') : SameSide .transmit n b b' where
  card := by
    obtain ⟨armed, hn⟩ := h.card
    rw [hn]
    exact ⟨rfl, rfl, rfl, fun _ => rfl, nofun, nofun⟩
  contexts := nofun

theorem sameSide_accept (h : i ≠ j) (b : Bench) (n : Handle Nic) (f : Frame) :
    SameSide i n b (b.accept n j f).1 := by
  refine (onlyCard_accept b n j f).sameSide (.of_control (accept_control b n j f)
    (ring_accept_of_ne h b n f) ?_)
  rcases b.accept_cases n j f with ⟨-, -, hn⟩ | ⟨-, -, -, hn⟩ | ⟨-, -, r, -, hn⟩
  · rw [hn, Nic.half_countRefused_of_ne h]
  · rw [hn, Nic.half_countRefused_of_ne h]
  · rw [hn, Nic.half_countAccepted_of_ne h, Nic.half_setRing]

theorem sameSide_take (h : i ≠ j) (b : Bench) (n : Handle Nic) :
    SameSide i n b (b.take n j).1 := by
  refine (onlyCard_take b n j).sameSide ?_
  rcases b.take_cases n j with ⟨-, ht⟩ | ⟨-, f, r, -, -, hn⟩
  · rw [ht]
    exact .refl i _
  · rw [hn]
    exact .of_control (Nic.sameControl_setRing ..) (Nic.ring_setRing_of_ne _ h r)
      (Nic.half_setRing ..)

/-- A transfer on the other side takes frames from there, one after the other. -/
theorem sameSide_pump (h : i ≠ j) (budget : Nat) (l : List Frame) (hb : SameSide i n b b') :
    SameSide i n b (pump (·.take n j) gather budget (b', l)).1.1 := by
  have step : ∀ c (l : List Frame), SameSide i n b c → SameSide i n b (c.take n j).1 :=
    fun c _ hc => hc.trans (sameSide_take h c n)
  exact pump_invariant (P := fun y => SameSide i n b y.1) (fun c l hc _ => step c l hc)
    (fun c l f hc _ => step c l hc) budget hb

theorem sameSide_transmit (b : Bench) (n : Handle Nic) (f : Frame) :
    SameSide .receive n b (b.transmit n f).1 := by
  have ha : SameSide .receive n b (b.accept n .transmit f).1 := sameSide_accept (by decide) b n f
  rcases b.transmit_cases n f with ht | ⟨t, -, ht⟩
  · rw [ht]
    exact ha
  · rw [ht]
    exact ha.trans (.of_nics rfl rfl)

theorem sameSide_modifyHook (b : Bench) (n : Handle Nic) (s : Option (Handle Signal)) :
    SameSide .receive n b (b.modifyNic n fun x => { x with hook := s }) where
  card := by
    rw [nic_modifyNic_self]
    exact ⟨rfl, rfl, rfl, nofun, fun _ => rfl, fun _ => rfl⟩
  contexts _ := rfl

theorem sameSide_modifyHandler (b : Bench) (n : Handle Nic) (as : Option (List HandlerAction)) :
    SameSide .transmit n b (b.modifyNic n fun x => { x with handler := as }) where
  card := by
    rw [nic_modifyNic_self]
    exact ⟨rfl, rfl, rfl, fun _ => rfl, nofun, nofun⟩
  contexts := nofun

theorem sameSide_deliver (b : Bench) (n : Handle Nic) (f : Frame) :
    SameSide .transmit n b (b.deliver n f).1 :=
  (sameSide_accept (by decide) b n f).trans (b.deliver_eq n f).2.sameSide

theorem sameSide_poll (b : Bench) (n : Handle Nic) (c : Handle PollContext) (budget : Nat) :
    SameSide .transmit n b (poll c n budget gather (b, [])).1.1 := by
  unfold poll
  dsimp only
  split
  · have hs : SameSide .transmit n b (b.startPass c) := ⟨.refl _ _, nofun⟩
    have hne : Direction.transmit ≠ .receive := by decide
    exact (sameSide_pump hne budget [] hs).trans (interrupted_endPass _ c n _ budget).sameSide
  · exact .of_nics rfl rfl
  · exact .of_nics rfl rfl

/-- **Neither side sees what is done on the other.** -/
theorem sameSide_sideStep (h : op.side ≠ i) (b : Bench) (n : Handle Nic) :
    SameSide i n b (b.sideStep n op).1 := by
  cases i with
  | receive =>
    cases op with
    | transmit f => exact sameSide_transmit b n f
    | drain budget => exact sameSide_pump (by decide) budget [] (.refl _ n b)
    | setHook s => exact sameSide_modifyHook b n _
    | clearHook => exact sameSide_modifyHook b n _
    | clearHookIf s =>
      show SameSide .receive n b (b.clearHookIf n s)
      unfold clearHookIf
      split
      · exact sameSide_modifyHook b n _
      · exact .refl _ n b
    | _ => exact absurd rfl h
  | transmit =>
    cases op with
    | deliver f => exact sameSide_deliver b n f
    | receive => exact sameSide_take (by decide) b n
    | rearm => exact (interrupted_rearm b n).sameSide
    | mask => exact (interrupted_modifyGate n b false).sameSide
    | installHandler as =>
      exact (sameSide_modifyHandler b n _).trans (interrupted_recordIf n _ _ _).sameSide
    | removeHandler => exact sameSide_modifyHandler b n _
    | schedule c => exact (interrupted_schedule n b c).sameSide
    | poll c budget => exact sameSide_poll b n c budget
    | _ => exact absurd rfl h

/-! ## What is written down -/

/-- Since a bench was the origin, these events were written down, newest first, and every
signal was raised as often as they say. -/
structure Wrote (o : Bench) (new : List Event) (b : Bench) : Prop where
  journal : b.journal = new ++ o.journal
  signal : ∀ t, b.signal t = Signal.raise^[new.count (.raised t)] (o.signal t)

namespace Wrote

variable {new : List Event}

theorem refl (b : Bench) : Wrote b [] b :=
  ⟨rfl, fun _ => rfl⟩

theorem of_eq (h : Wrote o new b) (hj : b'.journal = b.journal) (hs : b'.signals = b.signals) :
    Wrote o new b' where
  journal := hj.trans h.journal
  signal t := by
    rw [Bench.signal, hs]
    exact h.signal t

theorem record (h : Wrote o new b) {e : Event} (he : e.isRaise = false) :
    Wrote o (e :: new) (b.record e) where
  journal := congrArg (e :: ·) h.journal
  signal t := by
    have hne : e ≠ .raised t := by
      rintro rfl
      cases he
    rw [signal_record, List.count_cons_of_ne hne, h.signal]

theorem raise (h : Wrote o new b) (s : Handle Signal) :
    Wrote o (.raised s :: new) (b.raise s) where
  journal := congrArg (Event.raised s :: ·) h.journal
  signal t := by
    by_cases ht : t = s
    · rw [ht, Bench.raise, signal_record, signal_modifySignal_self, List.count_cons_self,
        Function.iterate_succ_apply', h.signal]
    · have hne : Event.raised s ≠ .raised t := fun he => ht (Event.raised.inj he).symm
      rw [signal_raise_of_ne ht, List.count_cons_of_ne hne, h.signal]

theorem eventsSince (h : Wrote o new b) : b.eventsSince o.journal.length = new.reverse := by
  rw [Bench.eventsSince, h.journal, List.length_append, Nat.add_sub_cancel,
    List.take_left]

end Wrote

/-! ## Two runs -/

/-- Two benches were the same for one side of a card, and since then the same was done to
that side on both. -/
structure Paired (i : Direction) (n : Handle Nic) (o o' b b' : Bench) : Prop
    extends SameSide i n b b' where
  wrote : ∃ new, Wrote o new b ∧ Wrote o' new b'

/-- Something was done on both benches, and the answer was the same. -/
inductive Concur (i : Direction) (n : Handle Nic) (o o' : Bench) : Bench × β → Bench × β → Prop
  | intro {b b' : Bench} (h : Paired i n o o' b b') (a : β) : Concur i n o o' (b, a) (b', a)

namespace Concur

variable {r r' : Bench × β}

theorem bench (h : Concur i n o o' r r') : Paired i n o o' r.1 r'.1 := by
  cases h with
  | intro h a => exact h

theorem answer (h : Concur i n o o' r r') : r'.2 = r.2 := by
  cases h with
  | intro h a => rfl

theorem of (h : Paired i n o o' r.1 r'.1) (ha : r'.2 = r.2) : Concur i n o o' r r' := by
  obtain ⟨b, a⟩ := r
  obtain ⟨b', a'⟩ := r'
  obtain rfl : a' = a := ha
  exact .intro h a'

/-- Whatever is made of the answer. -/
theorem answered {α : Type} (h : Concur i n o o' r r') (g : β → α) :
    Concur i n o o' (r.1, g r.2) (r'.1, g r'.2) := by
  cases h with
  | intro h a => exact .intro h (g a)

end Concur

namespace Paired

variable (c : Handle PollContext) (s : Handle Signal) (f : Frame)

theorem start (h : SameSide i n b b') : Paired i n b b' b b' :=
  ⟨h, [], .refl b, .refl b'⟩

section Parts

variable (h : Paired i n o o' b b')

include h

theorem modifyNic {k k' : Nic → Nic}
    (hk : (k (b.nic n)).SameSide i (k' (b'.nic n))) :
    Paired i n o o' (b.modifyNic n k) (b'.modifyNic n k') where
  card := by rwa [nic_modifyNic_self, nic_modifyNic_self]
  contexts := h.contexts
  wrote := by
    obtain ⟨new, hw, hw'⟩ := h.wrote
    exact ⟨new, hw.of_eq rfl rfl, hw'.of_eq rfl rfl⟩

theorem record {e : Event} (he : e.isRaise = false) :
    Paired i n o o' (b.record e) (b'.record e) where
  card := h.card
  contexts := h.contexts
  wrote := by
    obtain ⟨new, hw, hw'⟩ := h.wrote
    exact ⟨e :: new, hw.record he, hw'.record he⟩

theorem recordIf (q : Bool) {e : Event} (he : e.isRaise = false) :
    Paired i n o o' (b.recordIf q e) (b'.recordIf q e) := by
  cases q with
  | false => exact h
  | true => exact h.record he

theorem raise : Paired i n o o' (b.raise s) (b'.raise s) where
  card := h.card
  contexts := h.contexts
  wrote := by
    obtain ⟨new, hw, hw'⟩ := h.wrote
    exact ⟨.raised s :: new, hw.raise s, hw'.raise s⟩

theorem setPhase (q : PollPhase) : Paired i n o o' (b.setPhase c q) (b'.setPhase c q) where
  card := h.card
  contexts hi := congrArg (·.modify c fun x => { x with phase := q }) (h.contexts hi)
  wrote := by
    obtain ⟨new, hw, hw'⟩ := h.wrote
    exact ⟨new, hw.of_eq rfl rfl, hw'.of_eq rfl rfl⟩

/-! ### Frames -/

theorem accept : Concur i n o o' (b.accept n i f) (b'.accept n i f) := by
  unfold Bench.accept
  dsimp only
  rw [h.card.isReady, h.card.ring]
  split
  · exact .intro (h.modifyNic h.card.countRefused) _
  · split
    · exact .intro ((h.modifyNic h.card.countRefused).record rfl) _
    · next r _ => exact .intro ((h.modifyNic ((h.card.setRing r).countAccepted _)).record rfl) _

theorem take : Concur i n o o' (b.take n i) (b'.take n i) := by
  unfold Bench.take
  dsimp only
  rw [h.card.phase, h.card.ring]
  split
  · split
    · exact .intro h _
    · next r _ => exact .intro ((h.modifyNic (h.card.setRing r)).record rfl) _
  · exact .intro h _

omit h in
/-- A transfer hands over the same frames on both. -/
theorem pump (h : Paired i n o o' b b') (budget : Nat) (l : List Frame) :
    Concur i n o o' (Bench.pump (·.take n i) gather budget (b, l)).1
        (Bench.pump (·.take n i) gather budget (b', l)).1 ∧
      (Bench.pump (·.take n i) gather budget (b', l)).2 =
        (Bench.pump (·.take n i) gather budget (b, l)).2 := by
  induction budget generalizing b b' l with
  | zero => exact ⟨.intro h l, rfl⟩
  | succ budget ih =>
    have ht := h.take
    rw [Bench.pump, Bench.pump]
    generalize b.take n i = r at ht ⊢
    generalize b'.take n i = r' at ht ⊢
    cases ht with
    | intro h₁ found =>
      cases found with
      | none => exact ⟨.intro h₁ l, rfl⟩
      | some f =>
        obtain ⟨hp, hk⟩ := ih h₁ (l ++ [f])
        exact ⟨hp, congrArg (· + 1) hk⟩

end Parts

/-! ### The transmit side -/

section Transmit

variable (h : Paired .transmit n o o' b b')

include h

theorem modifyHook (s : Option (Handle Signal)) :
    Paired .transmit n o o' (b.modifyNic n fun x => { x with hook := s })
      (b'.modifyNic n fun x => { x with hook := s }) :=
  h.modifyNic (h.card.setHook s)

theorem clearHookIf : Paired .transmit n o o' (b.clearHookIf n s) (b'.clearHookIf n s) := by
  unfold Bench.clearHookIf
  rw [h.card.hook rfl]
  split
  · exact h.modifyHook none
  · exact h

theorem raiseHook : Paired .transmit n o o' (b.raiseHook n) (b'.raiseHook n) := by
  unfold Bench.raiseHook
  rw [h.card.hook rfl]
  split
  · exact h.raise _
  · exact h

theorem transmit : Concur .transmit n o o' (b.transmit n f) (b'.transmit n f) := by
  have ha := h.accept f
  unfold Bench.transmit
  generalize b.accept n .transmit f = r at ha ⊢
  generalize b'.accept n .transmit f = r' at ha ⊢
  cases ha with
  | intro h₁ a =>
    cases a with
    | error e => exact .intro h₁ _
    | ok u => exact .intro h₁.raiseHook _

end Transmit

/-! ### The receive side -/

section Receive

variable (h : Paired .receive n o o' b b')

include h

theorem context : b'.context c = b.context c := by
  rw [Bench.context, h.contexts rfl, Bench.context]

theorem request : Paired .receive n o o' (b.request c) (b'.request c) := by
  rw [request_eq, request_eq, h.context c]
  exact ((h.setPhase c .scheduled).record rfl).raise _

theorem schedule : Concur .receive n o o' (b.schedule c) (b'.schedule c) := by
  unfold Bench.schedule
  rw [h.context c]
  split
  · exact .intro (h.request c) true
  · exact .intro h false

theorem modifyGate (armed : Bool) :
    Paired .receive n o o' (b.modifyNic n fun x => { x with gate := { x.gate with armed } })
      (b'.modifyNic n fun x => { x with gate := { x.gate with armed } }) :=
  h.modifyNic (h.card.setArmed armed)

theorem modifyHandler (as : Option (List HandlerAction)) :
    Paired .receive n o o' (b.modifyNic n fun x => { x with handler := as })
      (b'.modifyNic n fun x => { x with handler := as }) :=
  h.modifyNic (h.card.setHandler as)

theorem act (a : HandlerAction) : Paired .receive n o o' (Bench.act n b a) (Bench.act n b' a) := by
  cases a with
  | raise s => exact h.raise s
  | arm => exact h.modifyGate true
  | disarm => exact h.modifyGate false
  | schedule c => exact (h.schedule c).bench

omit h in
theorem foldl_act (h : Paired .receive n o o' b b') (as : List HandlerAction) :
    Paired .receive n o o' (as.foldl (Bench.act n) b) (as.foldl (Bench.act n) b') := by
  induction as generalizing b b' with
  | nil => exact h
  | cons a as ih => exact ih (h.act a)

theorem interrupt : Concur .receive n o o' (b.interrupt n) (b'.interrupt n) := by
  unfold Bench.interrupt
  rw [h.card.armed rfl, h.card.handler rfl]
  split
  · split
    · exact .intro ((h.record rfl).foldl_act _) true
    · exact .intro h false
  · exact .intro h false

theorem installHandler (as : List HandlerAction) :
    Paired .receive n o o' (b.installHandler n as) (b'.installHandler n as) := by
  unfold Bench.installHandler
  rw [h.card.handler rfl]
  exact (h.modifyHandler (some as)).recordIf _ rfl

theorem rearm : Paired .receive n o o' (b.rearm n) (b'.rearm n) := by
  have h₁ : Paired .receive n o o' (b.armLine n) (b'.armLine n) := (h.modifyGate true).record rfl
  have hrx : (b'.nic n).rx = (b.nic n).rx := h.card.ring
  rw [rearm_eq, rearm_eq, h.card.isReady, hrx]
  split
  · exact h₁.interrupt.bench
  · exact h₁

theorem deliver : Concur .receive n o o' (b.deliver n f) (b'.deliver n f) := by
  have ha := h.accept f
  unfold Bench.deliver
  generalize b.accept n .receive f = r at ha ⊢
  generalize b'.accept n .receive f = r' at ha ⊢
  cases ha with
  | intro h₁ a =>
    cases a with
    | error e => exact .intro h₁ _
    | ok u =>
      have hi := h₁.interrupt
      dsimp only
      rw [hi.answer]
      exact .intro (hi.bench.recordIf _ rfl) _

theorem endPass (handled budget : Nat) :
    Paired .receive n o o' (b.endPass c n handled budget) (b'.endPass c n handled budget) := by
  unfold Bench.endPass
  dsimp only
  split
  · exact (h.setPhase c .idle).rearm.record rfl
  · exact (h.request c).record rfl

theorem poll (budget : Nat) (l : List Frame) :
    Concur .receive n o o' (Bench.poll c n budget gather (b, l)).1
        (Bench.poll c n budget gather (b', l)).1 ∧
      (Bench.poll c n budget gather (b', l)).2 = (Bench.poll c n budget gather (b, l)).2 := by
  unfold Bench.poll
  dsimp only
  rw [h.context c]
  split
  · have hs : Paired .receive n o o' (b.startPass c) (b'.startPass c) :=
      (h.setPhase c .draining).record rfl
    obtain ⟨hp, hk⟩ := hs.pump budget l
    dsimp only
    rw [hk, hp.answer]
    exact ⟨.intro (hp.bench.endPass c _ budget) _, rfl⟩
  · exact ⟨.intro (h.record rfl) l, rfl⟩
  · exact ⟨.intro (h.record rfl) l, rfl⟩

end Receive

/-- **A side that is the same on both benches does the same on both.** -/
theorem sideStep (h : Paired i n o o' b b') (hi : op.side = i) :
    Concur i n o o' (b.sideStep n op) (b'.sideStep n op) := by
  subst hi
  cases op with
  | transmit f => exact (h.transmit f).answered _
  | drain budget =>
    obtain ⟨hp, hk⟩ := h.pump budget []
    exact .of hp.bench (congrArg₂ SideAnswer.drained hp.answer hk)
  | setHook s => exact .intro (h.modifyHook _) _
  | clearHook => exact .intro (h.modifyHook _) _
  | clearHookIf s => exact .intro (h.clearHookIf s) _
  | deliver f => exact (h.deliver f).answered _
  | receive => exact h.take.answered _
  | rearm => exact .intro h.rearm _
  | mask => exact .intro (h.modifyGate false) _
  | installHandler as => exact .intro (h.installHandler as) _
  | removeHandler => exact .intro (h.modifyHandler none) _
  | schedule c => exact (h.schedule c).answered _
  | poll c budget =>
    obtain ⟨hp, ha⟩ := h.poll c budget []
    exact .of hp.bench (congrArg₂ SideAnswer.polled hp.answer ha)

end Paired

/-! ## Reports -/

theorem SameSide.sideReport (h : SameSide i n b b') (hi : op.side = i) :
    b'.sideReport n op = b.sideReport n op ∧
      SameSide i n (b.sideStep n op).1 (b'.sideStep n op).1 := by
  have hs := (Paired.start h).sideStep hi
  obtain ⟨new, hw, hw'⟩ := hs.bench.wrote
  refine ⟨?_, hs.bench.toSameSide⟩
  rw [Bench.sideReport, Bench.sideReport, hs.answer, hw.eventsSince, hw'.eventsSince]

/-- A step raises the signals that its report says, and no others. -/
theorem signal_sideStep (b : Bench) (n : Handle Nic) (op : SideOp) (t : Handle Signal) :
    (b.sideStep n op).1.signal t =
      Signal.raise^[(b.sideReport n op).events.count (.raised t)] (b.signal t) := by
  obtain ⟨new, hw, -⟩ := ((Paired.start (.refl op.side n b)).sideStep rfl).bench.wrote
  have he : (b.sideReport n op).events = new.reverse := hw.eventsSince
  rw [he, List.count_reverse, hw.signal]

theorem raisedIn_cons (t : Handle Signal) (r : SideReport) (rs : List SideReport) :
    raisedIn t (r :: rs) = r.events.count (.raised t) + raisedIn t rs := by
  rw [raisedIn, List.flatMap_cons, List.count_append, ← raisedIn]

theorem signal_runSides (n : Handle Nic) (ops : List SideOp) (b : Bench) (t : Handle Signal) :
    (runSides n ops b).1.signal t =
      Signal.raise^[raisedIn t (runSides n ops b).2] (b.signal t) := by
  induction ops generalizing b with
  | nil => rfl
  | cons op ops ih =>
    show (runSides n ops (b.sideStep n op).1).1.signal t =
      Signal.raise^[raisedIn t (b.sideReport n op :: (runSides n ops (b.sideStep n op).1).2)] _
    rw [ih, signal_sideStep, raisedIn_cons, Nat.add_comm, Function.iterate_add_apply]

/-- Every time that a signal was raised, it was on one side or on the other. -/
theorem raisedIn_sides (t : Handle Signal) (i : Direction) (rs : List SideReport) :
    raisedIn t rs =
      raisedIn t (rs.filter (·.op.side ≠ i)) + raisedIn t (rs.filter (·.op.side = i)) := by
  induction rs with
  | nil => rfl
  | cons r rs ih =>
    by_cases hr : r.op.side = i
    · rw [List.filter_cons_of_neg (by simpa using hr), List.filter_cons_of_pos (by simpa using hr),
        raisedIn_cons, raisedIn_cons, ih, Nat.add_left_comm]
    · rw [List.filter_cons_of_pos (by simpa using hr), List.filter_cons_of_neg (by simpa using hr),
        raisedIn_cons, raisedIn_cons, ih, Nat.add_assoc]

/-- On benches that are the same for one side, a run is the same for that side as what is
left of it without the other. -/
theorem SameSide.runSides (h : SameSide i n b b') (ops : List SideOp) :
    (Bench.runSides n ops b).2.filter (·.op.side = i) =
        (Bench.runSides n (ops.filter (·.side = i)) b').2 ∧
      SameSide i n (Bench.runSides n ops b).1
        (Bench.runSides n (ops.filter (·.side = i)) b').1 := by
  induction ops generalizing b b' with
  | nil => exact ⟨rfl, h⟩
  | cons op ops ih =>
    by_cases ho : op.side = i
    · obtain ⟨hr, hs⟩ := h.sideReport ho
      obtain ⟨hrs, hend⟩ := ih hs
      rw [List.filter_cons_of_pos (by simpa using ho)]
      refine ⟨?_, hend⟩
      show List.filter _ (b.sideReport n op :: _) = b'.sideReport n op :: _
      rw [List.filter_cons_of_pos, hr, hrs]
      exact decide_eq_true ho
    · -- The other run stands still, and the side does not see the step.
      obtain ⟨hrs, hend⟩ := ih ((sameSide_sideStep ho b n).symm.trans h)
      rw [List.filter_cons_of_neg (by simpa using ho)]
      refine ⟨?_, hend⟩
      show List.filter _ (b.sideReport n op :: _) = _
      rw [List.filter_cons_of_neg, hrs]
      exact mt of_decide_eq_true ho

/-- **The two sides of a card do not interfere.**  Of any run, leave out what was done on
the other side.  What remains answers the same and writes down the same, and it ends with
the same ring, the same counters, and the same hook or the same interrupt line, handler and
contexts.  A signal is raised less often by what the other side raised it, and so is the
same if the other side did not raise it. -/
theorem sides_independent (i : Direction) (n : Handle Nic) (ops : List SideOp) (b : Bench) :
    let whole := runSides n ops b
    let alone := runSides n (ops.filter (·.side = i)) b
    whole.2.filter (·.op.side = i) = alone.2 ∧ SameSide i n whole.1 alone.1 ∧
      ∀ t, whole.1.signal t =
        Signal.raise^[raisedIn t (whole.2.filter (·.op.side ≠ i))] (alone.1.signal t) := by
  intro whole alone
  obtain ⟨hr, hs⟩ := (SameSide.refl i n b).runSides ops
  refine ⟨hr, hs, fun t => ?_⟩
  calc whole.1.signal t
      = Signal.raise^[raisedIn t whole.2] (b.signal t) := signal_runSides n ops b t
    _ = Signal.raise^[raisedIn t (whole.2.filter (·.op.side ≠ i))]
          (Signal.raise^[raisedIn t alone.2] (b.signal t)) := by
        rw [raisedIn_sides t i whole.2, Function.iterate_add_apply, hr]
    _ = _ := congrArg _ (signal_runSides n _ b t).symm

end Bench
end SoftNic
