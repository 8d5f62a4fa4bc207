import Mathlib.Logic.Relation
import SoftNic.Proofs.RunLoop

/-! # No lost receive wakeup

Five things decide whether a received frame is ever looked at: whether the card
is ready, whether its interrupt line is armed, what is in the receive ring, the
phase of the poll context, and the signal that the run loop watches.  They are
changed by four parties, and a frame is stranded if they ever disagree: it sits
in the ring, no interrupt will come, and nobody was asked to run a pass.

This module proves that they do not disagree.  The device has a card of its
own; its user opens, closes, sends and serves it in any order, and others work
on the card at the same time, as long as they leave the interrupt line, the
handler, the context and the signal to the device (`DeviceStep`).  The sinks of
its transfers may deliver, send and arm the line from inside (`InsideCall`).

What holds throughout, also in the middle of a pass, is `Awake`.  One call or
step preserves it; runs follow by induction.
-/
namespace SoftNic
namespace Bench

variable {γ : Type} {d : Handle Device} {n : Handle Nic} {c : Handle PollContext}
  {s : Handle Signal} {inPass : Bool} {b b' : Bench}

/-! ## Runs -/

/-- What a sink may do from inside a transfer. -/
inductive InsideCall (d : Handle Device) : Bench → Bench → Prop
  | deliver (b : Bench) (f : Frame) : InsideCall d b (b.deliver (b.device d).nic f).1
  | send (b : Bench) (f : Frame) : InsideCall d b (b.send d f).1
  | rearm (b : Bench) : InsideCall d b (b.rearm (b.device d).nic)

/-- A sink that does nothing else to the bench. -/
def Modest (d : Handle Device) (sink : Sink γ) : Prop :=
  ∀ f b g, Relation.ReflTransGen (InsideCall d) b (sink f (b, g)).1

/-- What happens to a device and its card from outside. -/
inductive DeviceStep (d : Handle Device) : Bench → Bench → Prop
  | opened (b : Bench) : DeviceStep d b (b.openDevice d)
  | closed (b : Bench) : DeviceStep d b (b.closeDevice d).1
  | sent (b : Bench) (f : Frame) : DeviceStep d b (b.send d f).1
  | served (b : Bench) {γ : Type} (sink : Sink γ) (g : γ) (hm : Modest d sink) :
    DeviceStep d b (serve d sink (b, g)).1.1
  | delivered (b : Bench) (f : Frame) : DeviceStep d b (b.deliver (b.device d).nic f).1
  | drained (b : Bench) {γ : Type} (budget : Nat) (sink : Sink γ) (g : γ) (hm : Modest d sink) :
    DeviceStep d b (drain (b.device d).nic budget sink (b, g)).1.1
  | received (b : Bench) : DeviceStep d b (b.take (b.device d).nic .receive).1
  | rearmed (b : Bench) : DeviceStep d b (b.rearm (b.device d).nic)
  | setUp (b : Bench) : DeviceStep d b (b.setUp (b.device d).nic)
  | shutDown (b : Bench) : DeviceStep d b (b.shutDown (b.device d).nic)
  | tornDown (b : Bench) : DeviceStep d b (b.tearDown (b.device d).nic).1

/-! ## The invariant -/

/-- The device alone drives its card: a ready card has its handler and an
enabled context, and a scheduled context has asked for its pass. -/
structure Driven (d : Handle Device) (n : Handle Nic) (c : Handle PollContext)
    (s : Handle Signal) (inPass : Bool) (b : Bench) : Prop extends Attached d n c s b where
  pass : (b.context c).phase = .draining ↔ inPass = true
  asked : (b.context c).phase = .scheduled → (b.signal s).isPending = true
  installed : (b.nic n).gate.isReady = true → (b.nic n).handler = some (passHandler c)
  enabled : (b.nic n).gate.isReady = true → (b.context c).phase ≠ .disabled

/-- **No frame is stranded**: while the card is ready and no pass is wanted,
the line is armed and the ring is empty. -/
structure Awake (d : Handle Device) (n : Handle Nic) (c : Handle PollContext)
    (s : Handle Signal) (inPass : Bool) (b : Bench) : Prop extends Driven d n c s inPass b where
  listening : (b.nic n).gate.isReady = true → (b.context c).phase = .idle →
    (b.nic n).gate.armed = true ∧ (b.nic n).rx.toList = []

theorem Driven.awake_of_ne_idle (h : Driven d n c s inPass b)
    (hp : (b.context c).phase ≠ .idle) : Awake d n c s inPass b where
  toDriven := h
  listening _ hi := absurd hi hp

/-- A card that is not ready has nothing to be woken for. -/
theorem Driven.awake_of_not_ready (h : Driven d n c s inPass b)
    (hr : (b.nic n).gate.isReady = false) : Awake d n c s inPass b where
  toDriven := h
  listening hr' := absurd hr' (by simp [hr])

/-- What has to be known of a device whose context is in a given phase. -/
theorem Driven.of_phase (ha : Attached d n c s b) {p : PollPhase} (hp : (b.context c).phase = p)
    (hpass : p = .draining ↔ inPass = true) (hs : p = .scheduled → (b.signal s).isPending = true)
    (hr : (b.nic n).gate.isReady = true →
      (b.nic n).handler = some (passHandler c) ∧ p ≠ .disabled) : Driven d n c s inPass b where
  toAttached := ha
  pass := by rw [hp]; exact hpass
  asked hq := hs (hp ▸ hq)
  installed hready := (hr hready).1
  enabled hready := by
    rw [hp]
    exact (hr hready).2

/-- A device that is down: its card is not ready and its context is disabled. -/
theorem awake_of_down (ha : Attached d n c s b) (hp : (b.context c).phase = .disabled)
    (hr : (b.nic n).gate.isReady = false) : Awake d n c s false b := by
  refine Driven.awake_of_not_ready (.of_phase ha hp (by decide) nofun ?_) hr
  intro hr'
  exact absurd hr' (by simp [hr])

/-- A context that asks for a pass, while none is running, is awake. -/
theorem awake_of_request (ha : Attached d n c s b)
    (hh : (b.nic n).gate.isReady = true → (b.nic n).handler = some (passHandler c)) :
    Awake d n c s false (b.request c) := by
  have hp : ((b.request c).context c).phase = .scheduled := phase_request b c
  have hs : ((b.request c).signal s).isPending = true := by
    have := b.isPending_request c
    rwa [ha.request_eq] at this
  refine Driven.awake_of_ne_idle (.of_phase ?_ hp (by decide) (fun _ => hs) ?_) (by rw [hp]; decide)
  · exact ha.interrupted (interrupted_request n b c)
  · intro hr
    exact ⟨hh hr, by decide⟩

/-- The context stays as it is, no request is forgotten, and a card that is
ready was so before under the same control. -/
theorem Driven.transfer (h : Driven d n c s inPass b) (ha : Attached d n c s b')
    (hp : (b'.context c).phase = (b.context c).phase)
    (hs : (b.signal s).isPending = true → (b'.signal s).isPending = true)
    (hx : (b'.nic n).gate.isReady = true →
      (b.nic n).gate.isReady = true ∧ (b'.nic n).handler = (b.nic n).handler) :
    Driven d n c s inPass b' where
  toAttached := ha
  pass := by rw [hp]; exact h.pass
  asked hq := hs (h.asked (hp ▸ hq))
  installed hr := by
    obtain ⟨hr, hh⟩ := hx hr
    rw [hh, h.installed hr]
  enabled hr := by
    rw [hp]
    exact h.enabled (hx hr).1

theorem Awake.transfer (h : Awake d n c s inPass b) (ha : Attached d n c s b')
    (hp : (b'.context c).phase = (b.context c).phase)
    (hs : (b.signal s).isPending = true → (b'.signal s).isPending = true)
    (hx : (b'.nic n).gate.isReady = true → (b.nic n).SameControl (b'.nic n) ∧
      ((b.nic n).rx.toList = [] → (b'.nic n).rx.toList = [])) :
    Awake d n c s inPass b' where
  toDriven := h.toDriven.transfer ha hp hs fun hr => by
    have hc := (hx hr).1
    exact ⟨hc.gate ▸ hr, hc.handler⟩
  listening hr hi := by
    obtain ⟨hc, hl⟩ := hx hr
    obtain ⟨harm, hnil⟩ := h.listening (hc.gate ▸ hr) (hp ▸ hi)
    rw [hc.gate]
    exact ⟨harm, hl hnil⟩

/-- An operation on the card alone. -/
theorem Awake.onlyCard (h : Awake d n c s inPass b) (ho : OnlyCard n b b')
    (hx : (b'.nic n).gate.isReady = true → (b.nic n).SameControl (b'.nic n) ∧
      ((b.nic n).rx.toList = [] → (b'.nic n).rx.toList = [])) :
    Awake d n c s inPass b' :=
  h.transfer (h.toAttached.onlyCard ho) (by rw [ho.context_eq]) (by rw [ho.signal_eq]; exact id) hx

theorem Awake.record (h : Awake d n c s inPass b) (e : Event) :
    Awake d n c s inPass (b.record e) :=
  h.onlyCard ((OnlyCard.refl n b).record e) fun _ => ⟨⟨rfl, rfl, rfl⟩, id⟩

theorem Awake.countDevice (h : Awake d n c s inPass b) (f : Counters → Counters) :
    Awake d n c s inPass (b.countDevice d f) :=
  h.transfer (h.toAttached.countDevice d f) rfl id fun _ => ⟨⟨rfl, rfl, rfl⟩, id⟩

/-! ## Interrupts -/

/-- An interrupt while the card is ready: either it runs the handler, which
schedules an idle context, or the line is masked and the context was not
idle. -/
theorem Driven.interrupt (h : Driven d n c s inPass b) (hr : (b.nic n).gate.isReady = true)
    (hi : (b.context c).phase = .idle → (b.nic n).gate.armed = true) :
    Awake d n c s inPass (b.interrupt n).1 := by
  by_cases ha : (b.nic n).gate.armed = true
  · rw [interrupt_passHandler ha (h.installed hr)]
    generalize hb : (b.record (.nic n (.notified (passHandler c)))).mask n = b₁
    have ho : OnlyCard n b b₁ := hb ▸ ((OnlyCard.refl n b).record _).trans (onlyCard_mask _ n)
    have hx : b₁.nic n = { b.nic n with gate := (b.nic n).gate.disarm } := by
      rw [← hb, nic_mask, nic_record]
    have h₁ : Driven d n c s inPass b₁ :=
      h.transfer (h.toAttached.onlyCard ho) (by rw [ho.context_eq]) (by rw [ho.signal_eq]; exact id)
        fun _ => by rw [hx]; exact ⟨hr, rfl⟩
    by_cases hp : (b₁.context c).phase = .idle
    · -- An idle context is outside a pass, so it may ask for one.
      have hno : inPass = false := by
        have hpass := h₁.pass
        rw [hp] at hpass
        cases inPass
        · rfl
        · exact absurd (hpass.mpr rfl) (by decide)
      rw [schedule_of_idle hp, hno]
      exact awake_of_request h₁.toAttached h₁.installed
    · rw [schedule_of_not_idle hp]
      exact h₁.awake_of_ne_idle hp
  · rw [interrupt_of_masked (by simpa using ha)]
    exact h.awake_of_ne_idle fun hp => ha (hi hp)

/-- Arming the line wakes a device up, whatever was in the ring. -/
theorem Driven.rearm (h : Driven d n c s inPass b) : Awake d n c s inPass (b.rearm n) := by
  have ho : OnlyCard n b (b.armLine n) := ((OnlyCard.refl n b).modifyNic _).record _
  have hx : (b.armLine n).nic n = { b.nic n with gate := (b.nic n).gate.arm } := by
    rw [armLine, nic_record, nic_modifyNic_self]
  have h₁ : Driven d n c s inPass (b.armLine n) :=
    h.transfer (h.toAttached.onlyCard ho) (by rw [ho.context_eq]) (by rw [ho.signal_eq]; exact id)
      fun hr => by rw [hx] at hr ⊢; exact ⟨hr, rfl⟩
  rw [rearm_eq]
  split
  · next hw =>
    simp only [Bool.and_eq_true] at hw
    refine h₁.interrupt ?_ fun _ => ?_
    · rw [hx]
      exact hw.1
    · rw [hx]
      rfl
  · next hw =>
    -- Nothing was waiting, or the card is down.
    refine ⟨h₁, fun hr _ => ?_⟩
    rw [hx] at hr ⊢
    refine ⟨rfl, (b.nic n).rx.isEmpty_iff.mp ?_⟩
    have hr' : (b.nic n).gate.isReady = true := hr
    simpa [hr'] using hw

/-! ## Calls from inside a transfer -/

theorem Awake.deliver (h : Awake d n c s inPass b) (f : Frame) :
    Awake d n c s inPass (b.deliver n f).1 := by
  have ho := onlyCard_accept b n .receive f
  have hc := b.accept_control n .receive f
  rcases b.deliver_cases n f with ⟨-, hd, hring⟩ | ⟨hr, -, p, e, hd⟩
  · -- A refused frame leaves the ring as it was.
    rw [hd] at hring ⊢
    exact h.onlyCard ho fun _ => ⟨hc, fun hnil => (congrArg Ring.toList (hring .receive)).trans hnil⟩
  · -- Only now may the ring be filled while the context is idle: the line is armed.
    rw [hd]
    have h₁ : Driven d n c s inPass (b.accept n .receive f).1 :=
      h.toDriven.transfer (h.toAttached.onlyCard ho) (by rw [ho.context_eq])
        (by rw [ho.signal_eq]; exact id) fun _ => ⟨hr, hc.handler⟩
    have hi := h₁.interrupt (by rw [hc.gate]; exact hr) fun hp => by
      rw [hc.gate]
      exact (h.listening hr (by rwa [ho.context_eq] at hp)).1
    cases p
    · exact hi
    · exact hi.record e

theorem Awake.send (h : Awake d n c s inPass b) (f : Frame) :
    Awake d n c s inPass (b.send d f).1 := by
  obtain ⟨ha, ht⟩ := send_spec h.toAttached f
  refine h.transfer ha (by rw [context, ht.contexts, ← context]) ?_ fun _ => ⟨ht.control, ?_⟩
  · intro hs
    rcases ht.signals with he | ⟨t, -, he⟩
    · rwa [signal, he]
    · rw [signal, he]
      exact isPending_raise_of_isPending hs t
  · rw [ht.rx]
    exact id

theorem Awake.take (h : Awake d n c s inPass b) (e : Direction) :
    Awake d n c s inPass (b.take n e).1 :=
  h.onlyCard (onlyCard_take b n e) fun _ =>
    ⟨b.take_control n e, ring_take_of_nil (e := .receive)⟩

/-- One call of a sink. -/
theorem Awake.insideCall (h : Awake d n c s inPass b) (hc : InsideCall d b b') :
    Awake d n c s inPass b' := by
  cases hc with
  | deliver f =>
    rw [h.nic_eq]
    exact h.deliver f
  | send f => exact h.send f
  | rearm =>
    rw [h.nic_eq]
    exact h.toDriven.rearm

/-- All calls of a modest sink for one frame. -/
theorem Awake.modest {sink : Sink γ} (h : Awake d n c s inPass b) (hm : Modest d sink) (f : Frame)
    (g : γ) : Awake d n c s inPass (sink f (b, g)).1 := by
  have hr := hm f b g
  generalize (sink f (b, g)).1 = b' at hr
  induction hr with
  | refl => exact h
  | tail _ hc ih => exact ih.insideCall hc

/-- A transfer whose sink is modest. -/
theorem Awake.pump {sink : Sink γ} (h : Awake d n c s inPass b) (e : Direction)
    (hsink : ∀ b, Awake d n c s inPass b → ∀ f g, Awake d n c s inPass (sink f (b, g)).1)
    (budget : Nat) (g : γ) :
    Awake d n c s inPass (Bench.pump (·.take n e) sink budget (b, g)).1.1 :=
  pump_invariant (P := fun s' => Awake d n c s inPass s'.1) (fun _ _ hb _ => hb.take e)
    (fun _ g f hb _ => hsink _ (hb.take e) f g) budget h

/-! ## Passes -/

theorem Awake.startPass (h : Awake d n c s false b) :
    Awake d n c s true (b.startPass c) := by
  have hp : ((b.startPass c).context c).phase = .draining :=
    congrArg PollContext.phase (context_setPhase b c .draining)
  have ha : Attached d n c s (b.startPass c) := (h.toAttached.setPhase c .draining).record _
  refine Driven.awake_of_ne_idle (.of_phase ha hp (by decide) nofun ?_) (by rw [hp]; decide)
  intro hr
  exact ⟨h.installed hr, by decide⟩

/-- The end of a pass.  A complete pass leaves the context idle and arms the
line, an incomplete one asks for the next. -/
theorem Awake.endPass (h : Awake d n c s true b) (handled budget : Nat) :
    Awake d n c s false (b.endPass c n handled budget) := by
  unfold Bench.endPass
  refine Awake.record ?_ _
  split
  · have hp : ((b.setPhase c .idle).context c).phase = .idle :=
      congrArg PollContext.phase (context_setPhase b c .idle)
    -- The context is idle before the line is armed, so what came in meanwhile is heard.
    refine Driven.rearm (.of_phase (h.toAttached.setPhase c .idle) hp (by decide) nofun ?_)
    intro hr
    exact ⟨h.installed hr, by decide⟩
  · exact awake_of_request h.toAttached h.installed

/-- Taking the request of a context that does not wait for a pass. -/
theorem Awake.takeSignal (h : Awake d n c s inPass b) (hp : (b.context c).phase ≠ .scheduled) :
    Awake d n c s inPass (b.takeSignal s).1 where
  toAttached := h.toAttached.takeSignal s
  pass := h.pass
  asked hq := absurd hq hp
  installed := h.installed
  enabled := h.enabled
  listening := h.listening

/-- One step of the run loop. -/
theorem Awake.serve {sink : Sink γ} (h : Awake d n c s false b) (hm : Modest d sink) (g : γ) :
    Awake d n c s false (Bench.serve d sink (b, g)).1.1 := by
  by_cases hs : (b.signal s).isPending = true
  · rw [serve_of_pending h.toAttached hs]
    rcases pollDevice_cases (h.toAttached.takeSignal s) sink g with
      ⟨hp, r, k, hr, he⟩ | ⟨hp, e, he⟩ | ⟨hp, e, he⟩
    · -- The request is gone, and so is the phase that asked for it.
      have hstart : Awake d n c s true
          (((b.takeSignal s).1.recordDevice d .polled).startPass c) :=
        (h.record _).startPass.takeSignal (s := s) (by
          rw [show (((b.record _).startPass c).context c).phase = .draining from
            congrArg PollContext.phase (context_setPhase _ c .draining)]
          decide)
      have hsink : ∀ b, Awake d n c s true b → ∀ f g,
          Awake d n c s true (counting d sink f (b, g)).1 :=
        fun b hb f g => ((hb.record _).countDevice _).modest hm f g
      have hpump := hstart.pump .receive hsink ((b.takeSignal s).1.device d).weight g
      rw [he]
      rw [hr] at hpump
      exact hpump.endPass k _
    · rw [he]
      have hp' : (b.context c).phase ≠ .scheduled := by
        rw [show (b.context c).phase = .disabled from hp]
        decide
      exact ((h.takeSignal hp').record _).record e
    · rw [he]
      have hp' : (b.context c).phase ≠ .scheduled := by
        intro hq
        rcases hp with hp | hp
        · exact absurd (hq.symm.trans hp) (by decide)
        · exact absurd (hq.symm.trans hp) (by decide)
      exact ((h.takeSignal hp').record _).record e
  · have hs' : (b.signal s).isPending = false := by simpa using hs
    rw [serve_of_not_pending h.toAttached hs']
    exact h.takeSignal fun hq => hs (h.asked hq)

/-! ## Opening and closing -/

theorem Awake.openDevice (h : Awake d n c s false b) :
    Awake d n c s false (b.openDevice d) := by
  obtain ⟨ha, hx, hp, hs⟩ := openDevice_spec h.toAttached
  refine ⟨⟨ha, ?_, ?_, ?_, ?_⟩, ?_⟩
  · rw [hp, PollPhase.enabled_eq_iff (by decide), ← h.pass]
    exact and_iff_left (by decide)
  · intro hq
    rw [hp, PollPhase.enabled_eq_iff (by decide)] at hq
    rw [hs]
    exact h.asked hq.1
  · intro _
    rw [hx, Nic.handler_opened]
  · intro _
    rw [hp]
    exact PollPhase.enabled_ne_disabled _
  · intro _ hi
    rw [hx]
    by_cases hr : (b.nic n).gate.isReady = true
    · -- The device was up before, so its context was enabled before.
      rw [hp, PollPhase.enabled_of_ne (h.enabled hr)] at hi
      rw [Nic.opened_of_ready hr]
      exact h.listening hr hi
    · rw [Nic.opened_of_not_ready (by simpa using hr)]
      exact ⟨rfl, (b.nic n).toList_ring_emptied .receive⟩

theorem Awake.closeDevice (h : Awake d n c s false b) :
    Awake d n c s false (b.closeDevice d).1 := by
  have hd : (b.context c).phase ≠ .draining := fun hd => nomatch h.pass.mp hd
  obtain ⟨-, ha, hx, hp, -⟩ := closeDevice_spec h.toAttached hd
  refine awake_of_down ha hp ?_
  rw [hx]
  rfl

/-! ## Steps and runs -/

/-- An operation on the card alone that leaves it down. -/
theorem Awake.down (h : Awake d n c s inPass b) (ho : OnlyCard n b b')
    (hr : (b'.nic n).gate.isReady = false) : Awake d n c s inPass b' :=
  h.onlyCard ho fun hr' => absurd hr' (by simp [hr])

/-- One step, whatever it is. -/
theorem Awake.deviceStep (h : Awake d n c s false b) (hs : DeviceStep d b b') :
    Awake d n c s false b' := by
  have hn := h.nic_eq
  cases hs with
  | opened => exact h.openDevice
  | closed => exact h.closeDevice
  | sent f => exact h.send f
  | served sink g hm => exact h.serve hm g
  | delivered f =>
    rw [hn]
    exact h.deliver f
  | drained budget sink g hm =>
    rw [hn]
    exact h.pump .transmit (fun b hb f g => hb.modest hm f g) budget g
  | received =>
    rw [hn]
    exact h.take .receive
  | rearmed =>
    rw [hn]
    exact h.toDriven.rearm
  | setUp =>
    rw [hn]
    by_cases hr : (b.nic n).gate.isReady = true
    · refine h.onlyCard (onlyCard_setUp b n) fun _ => ?_
      rw [nic_setUp_of_ready hr]
      exact ⟨⟨rfl, rfl, rfl⟩, id⟩
    · refine h.down (onlyCard_setUp b n) ?_
      rw [nic_setUp_of_not_ready hr]
      simpa using hr
  | shutDown =>
    rw [hn]
    refine h.down (onlyCard_shutDown b n) ?_
    rw [nic_shutDown]
    exact Gate.isReady_shut _
  | tornDown =>
    rw [hn]
    refine h.down (onlyCard_tearDown b n) ?_
    rw [nic_tearDown]
    rfl

theorem awake_of_buildDevice {b₀ : Bench} {x : Settings} (hb : b₀.buildDevice x s = .ok (d, b)) :
    Awake d (b.device d).nic (b.device d).context s false b := by
  obtain ⟨n, c, ha, hp, hx, -⟩ := buildDevice_spec hb
  rw [ha.nic_eq, ha.context_eq]
  refine awake_of_down ha hp ?_
  rw [(Nic.new_of_ofSizes hx).1]
  rfl

/-- **No lost receive wakeup.**  Build a device, with a card of its own, on any
bench, and let any steps happen to it.  If then the card is ready and a frame is
in its receive ring, the context waits for a pass and its request is pending; and
if the card is ready and the context is idle, the line is armed and the ring is
empty. -/
theorem wakeup_pending {b₀ b₁ : Bench} {x : Settings} (hb : b₀.buildDevice x s = .ok (d, b₁))
    (hr : Relation.ReflTransGen (DeviceStep d) b₁ b) :
    ((b.nic (b.device d).nic).gate.isReady = true → (b.nic (b.device d).nic).rx.toList ≠ [] →
      (b.context (b.device d).context).phase = .scheduled ∧ (b.signal s).isPending = true) ∧
    ((b.nic (b.device d).nic).gate.isReady = true →
      (b.context (b.device d).context).phase = .idle →
        (b.nic (b.device d).nic).gate.armed = true ∧ (b.nic (b.device d).nic).rx.toList = []) := by
  have h : Awake d (b₁.device d).nic (b₁.device d).context s false b := by
    induction hr with
    | refl => exact awake_of_buildDevice hb
    | tail _ hs ih => exact ih.deviceStep hs
  rw [h.nic_eq, h.context_eq]
  refine ⟨fun hr hne => ?_, h.listening⟩
  -- The frame and the ready card exclude every phase but one.
  have hp : (b.context (b₁.device d).context).phase = .scheduled := by
    cases hq : (b.context (b₁.device d).context).phase with
    | disabled => exact absurd hq (h.enabled hr)
    | idle => exact absurd (h.listening hr hq).2 hne
    | scheduled => rfl
    | draining => exact nomatch h.pass.mp hq
  exact ⟨hp, h.asked hp⟩

/-- A device of the least size is opened, and a frame is delivered to it. -/
theorem wakeup_pending_arrival :
    ∃ d b₁ b, (default : Bench).buildDevice
        { Settings.standard with txRing := 2, rxRing := 2 } ⟨0⟩ = .ok (d, b₁) ∧
      Relation.ReflTransGen (DeviceStep d) b₁ b ∧
      (b.nic (b.device d).nic).gate.isReady = true ∧ (b.nic (b.device d).nic).rx.toList ≠ [] ∧
      (b.context (b.device d).context).phase = .scheduled ∧
      (b.signal ⟨0⟩).isPending = true := by
  obtain ⟨d, b₁, hb⟩ : ∃ d b₁, (default : Bench).buildDevice
    { Settings.standard with txRing := 2, rxRing := 2 } ⟨0⟩ = .ok (d, b₁) := ⟨_, _, rfl⟩
  obtain ⟨n, c, ha, -, hx, -⟩ := buildDevice_spec hb
  let f : Frame := ⟨[1, 2, 3]⟩
  obtain ⟨ha₂, hx₂, -, -⟩ := openDevice_spec ha
  have hr₂ : ((b₁.openDevice d).nic n).gate.isReady = true := by
    rw [hx₂]
    exact Nic.isReady_opened ..
  have hnil : (((b₁.openDevice d).nic n).ring .receive).toList = [] := by
    rw [hx₂, Nic.opened_of_not_ready (by rw [(Nic.new_of_ofSizes hx).1]; rfl)]
    exact (b₁.nic n).toList_ring_emptied .receive
  have run : Relation.ReflTransGen (DeviceStep d) b₁ ((b₁.openDevice d).deliver n f).1 := by
    have := (Relation.ReflTransGen.single (DeviceStep.opened (d := d) b₁)).tail (.delivered _ f)
    rwa [ha₂.nic_eq] at this
  have hi := ((b₁.openDevice d).deliver_eq n f).2
  have had := (ha₂.onlyCard (onlyCard_accept _ n .receive f)).interrupted hi
  have hr : (((b₁.openDevice d).deliver n f).1.nic n).gate.isReady = true := by
    rw [Gate.isReady, hi.phase_eq, ((b₁.openDevice d).accept_control n .receive f).gate]
    exact hr₂
  have hne : (((b₁.openDevice d).deliver n f).1.nic n).rx.toList ≠ [] := by
    have := toList_ring_accept (accept_of_nil hr₂ hnil f)
    rw [← hi.ring_eq, hnil] at this
    exact fun he => absurd (this.symm.trans he) (by simp)
  have key := (wakeup_pending hb run).1
  rw [had.nic_eq] at key
  refine ⟨d, b₁, _, hb, run, ?_, ?_, key hr hne⟩
  · rw [had.nic_eq]
    exact hr
  · rw [had.nic_eq]
    exact hne

end Bench
end SoftNic
