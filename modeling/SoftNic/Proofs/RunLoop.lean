import SoftNic.Proofs.Footprint

/-! # Devices in a run loop

A device ties a card to a poll context, and the context to the signal that a
run loop watches.  None of the three ties is ever undone (`Bench.Attached`), so
what a device operation does can be told in three parts: what becomes of the
card, what becomes of the phase of the context, and what becomes of the signal.
This module tells it, one operation after the other.
-/
namespace SoftNic

/-- What the handler of a device does: it masks the card and asks the context
of the device for a pass. -/
def passHandler (c : Handle PollContext) : List HandlerAction :=
  [.disarm, .schedule c]

/-- The phase of a context that was enabled. -/
def PollPhase.enabled (p : PollPhase) : PollPhase :=
  if p = .disabled then .idle else p

namespace PollPhase

theorem enabled_ne_disabled (p : PollPhase) : p.enabled ≠ .disabled := by
  cases p <;> decide

theorem enabled_of_ne {p : PollPhase} (h : p ≠ .disabled) : p.enabled = p :=
  if_neg h

theorem enabled_eq_iff {p q : PollPhase} (h : q ≠ .idle) :
    p.enabled = q ↔ p = q ∧ q ≠ .disabled := by
  cases p <;> cases q <;> simp_all [enabled]

end PollPhase

namespace Nic

/-- A card whose device was opened. -/
def opened (x : Nic) (c : Handle PollContext) : Nic :=
  if x.gate.isReady then { x with handler := some (passHandler c) }
  else { x.emptied with handler := some (passHandler c), gate := ⟨.ready, true⟩ }

/-- A card whose device was closed. -/
def closed (x : Nic) : Nic :=
  { x.emptied with handler := none, gate := {} }

@[simp] theorem handler_opened (x : Nic) (c : Handle PollContext) :
    (x.opened c).handler = some (passHandler c) := by
  unfold opened
  split <;> rfl

theorem opened_of_ready {x : Nic} (h : x.gate.isReady = true) (c : Handle PollContext) :
    x.opened c = { x with handler := some (passHandler c) } :=
  if_pos h

theorem opened_of_not_ready {x : Nic} (h : x.gate.isReady = false) (c : Handle PollContext) :
    x.opened c = { x.emptied with handler := some (passHandler c), gate := ⟨.ready, true⟩ } :=
  if_neg (by simp [h])

theorem isReady_opened (x : Nic) (c : Handle PollContext) :
    (x.opened c).gate.isReady = true := by
  unfold opened
  split
  · next h => exact h
  · rfl

end Nic

namespace Bench

variable {γ : Type} {d : Handle Device} {n : Handle Nic} {c : Handle PollContext}
  {s : Handle Signal} {b b' : Bench}

/-! ## The ties of a device -/

/-- A device drives a card through a context that asks by a signal. -/
structure Attached (d : Handle Device) (n : Handle Nic) (c : Handle PollContext)
    (s : Handle Signal) (b : Bench) : Prop where
  nic_eq : (b.device d).nic = n
  context_eq : (b.device d).context = c
  request_eq : (b.context c).request = s

namespace Attached

theorem onlyCard {m : Handle Nic} (h : Attached d n c s b) (ho : OnlyCard m b b') :
    Attached d n c s b' where
  nic_eq := by rw [ho.device_eq, h.nic_eq]
  context_eq := by rw [ho.device_eq, h.context_eq]
  request_eq := by rw [ho.context_eq, h.request_eq]

theorem interrupted {m : Handle Nic} (h : Attached d n c s b) (hi : Interrupted m b b') :
    Attached d n c s b' where
  nic_eq := by rw [device, hi.devices, ← device, h.nic_eq]
  context_eq := by rw [device, hi.devices, ← device, h.context_eq]
  request_eq := by rw [hi.request, h.request_eq]

theorem setPhase (h : Attached d n c s b) (k : Handle PollContext) (p : PollPhase) :
    Attached d n c s (b.setPhase k p) where
  nic_eq := h.nic_eq
  context_eq := h.context_eq
  request_eq := by rw [request_setPhase, h.request_eq]

theorem record (h : Attached d n c s b) (e : Event) : Attached d n c s (b.record e) :=
  ⟨h.nic_eq, h.context_eq, h.request_eq⟩

theorem takeSignal (h : Attached d n c s b) (t : Handle Signal) :
    Attached d n c s (b.takeSignal t).1 :=
  ⟨h.nic_eq, h.context_eq, h.request_eq⟩

theorem countDevice (h : Attached d n c s b) (e : Handle Device) (f : Counters → Counters) :
    Attached d n c s (b.countDevice e f) := by
  have hd : (b.countDevice e f).device d = b.device d ∨
      (b.countDevice e f).device d = { b.device d with counters := f (b.device d).counters } := by
    by_cases he : d = e
    · subst he
      exact Or.inr (b.devices.get_modify_self d _)
    · exact Or.inl (b.devices.get_modify_of_ne he _)
  constructor
  · rcases hd with hd | hd
    · rw [hd, h.nic_eq]
    · rw [hd]
      exact h.nic_eq
  · rcases hd with hd | hd
    · rw [hd, h.context_eq]
    · rw [hd]
      exact h.context_eq
  · exact h.request_eq

end Attached

@[simp] theorem nic_countDevice (b : Bench) (d : Handle Device) (f : Counters → Counters)
    (m : Handle Nic) : (b.countDevice d f).nic m = b.nic m := rfl

@[simp] theorem context_countDevice (b : Bench) (d : Handle Device) (f : Counters → Counters)
    (k : Handle PollContext) : (b.countDevice d f).context k = b.context k := rfl

@[simp] theorem signal_countDevice (b : Bench) (d : Handle Device) (f : Counters → Counters)
    (t : Handle Signal) : (b.countDevice d f).signal t = b.signal t := rfl

/-! ## New devices -/

/-- A new device drives the given card through a new, disabled context. -/
theorem newDevice_spec {x : Settings} (h : b.newDevice x n s = .ok (d, b')) :
    Attached d n ⟨b.contexts.next⟩ s b' ∧ (b'.context ⟨b.contexts.next⟩).phase = .disabled ∧
      (∀ k, k ≠ ⟨b.contexts.next⟩ → b'.context k = b.context k) ∧ b'.nics = b.nics ∧
      b'.signals = b.signals := by
  unfold newDevice at h
  split at h
  · cases h
  · next x _ =>
    have hc : (b.contexts.add { request := s }).2.get ⟨b.contexts.next⟩ = { request := s } :=
      b.contexts.get_add_self _
    obtain ⟨rfl, rfl⟩ := Prod.mk.inj (Except.ok.inj h)
    have hd : ∀ y : Device, (b.devices.add y).2.get ⟨b.devices.next⟩ = y := b.devices.get_add_self
    refine ⟨⟨?_, ?_, ?_⟩, ?_, ?_, rfl, rfl⟩
    · exact congrArg Device.nic (hd _)
    · exact congrArg Device.context (hd _)
    · exact congrArg PollContext.request hc
    · exact congrArg PollContext.phase hc
    · intro k hk
      exact b.contexts.get_add_of_ne _ hk

/-- A device with a card of its own: the card is new. -/
theorem buildDevice_spec {x : Settings} (h : b.buildDevice x s = .ok (d, b')) :
    ∃ n c, Attached d n c s b' ∧ (b'.context c).phase = .disabled ∧
      Nic.ofSizes x.txRing x.rxRing = .ok (b'.nic n) ∧ b'.signals = b.signals := by
  unfold buildDevice at h
  split at h
  · cases h
  · next y hy =>
    obtain ⟨-, rfl⟩ := Settings.checked_eq_ok_iff.mp hy
    split at h
    · cases h
    · next z hz =>
      dsimp only at h
      split at h
      · cases h
      · next made hm =>
        obtain rfl := Except.ok.inj h
        obtain ⟨ha, hp, -, hn, hs⟩ := newDevice_spec hm
        have hnew : (b.addNic z).2.nic (b.addNic z).1 = z := nic_of_addNic rfl
        refine ⟨_, _, ha, hp, ?_, hs⟩
        rw [nic, hn, ← nic, hnew, hz]

/-! ## Contexts on and off -/

theorem enableContext_of_disabled (h : (b.context c).phase = .disabled) :
    b.enableContext c = b.setPhase c .idle := by
  rw [enableContext, h]

theorem enableContext_of_enabled (h : (b.context c).phase ≠ .disabled) :
    b.enableContext c = b.record (.poll c (.enableIgnored (b.context c).phase)) := by
  unfold enableContext
  split
  · next hd => exact absurd hd h
  · rfl

theorem phase_enableContext (b : Bench) (c : Handle PollContext) :
    ((b.enableContext c).context c).phase = (b.context c).phase.enabled := by
  by_cases h : (b.context c).phase = .disabled
  · rw [enableContext_of_disabled h, context_setPhase, h]
    rfl
  · rw [enableContext_of_enabled h, context_record, PollPhase.enabled, if_neg h]

/-- Enabling a context touches nothing but its phase. -/
theorem interrupted_enableContext (m : Handle Nic) (b : Bench) (c : Handle PollContext) :
    Interrupted m b (b.enableContext c) ∧ (b.enableContext c).nics = b.nics ∧
      (b.enableContext c).signals = b.signals := by
  by_cases h : (b.context c).phase = .disabled
  · rw [enableContext_of_disabled h]
    exact ⟨.of_nics rfl (fun k => request_setPhase b c k _) rfl rfl rfl, rfl, rfl⟩
  · rw [enableContext_of_enabled h]
    exact ⟨interrupted_record m b _, rfl, rfl⟩

/-- Disabling a context whose pass is not running disables it, and touches
nothing else. -/
theorem disableContext_ok (m : Handle Nic) (h : (b.context c).phase ≠ .draining) :
    ∃ b', b.disableContext c = (b', .ok ()) ∧ (b'.context c).phase = .disabled ∧
      Interrupted m b b' ∧ b'.nics = b.nics ∧ b'.signals = b.signals := by
  have hi : Interrupted m b (b.setPhase c .disabled) :=
    .of_nics rfl (fun k => request_setPhase b c k _) rfl rfl rfl
  have hp : ((b.setPhase c .disabled).context c).phase = .disabled := by rw [context_setPhase]
  unfold disableContext
  split
  · next hd => exact absurd hd h
  · exact ⟨_, rfl, hp, hi.trans (interrupted_record m _ _), rfl, rfl⟩
  · exact ⟨_, rfl, hp, hi, rfl, rfl⟩

/-! ## Opening and closing -/

/-- Opening a device: its card is ready, its handler is installed and its
context takes requests; the signal stays as it is. -/
theorem openDevice_spec (h : Attached d n c s b) :
    Attached d n c s (b.openDevice d) ∧ (b.openDevice d).nic n = (b.nic n).opened c ∧
      ((b.openDevice d).context c).phase = (b.context c).phase.enabled ∧
      (b.openDevice d).signal s = b.signal s := by
  have hh : (b.device d).handler = passHandler c := by rw [Device.handler, h.context_eq]; rfl
  let b₁ := (b.recordDevice d .opened).setUp n
  let b₂ := b₁.enableContext c
  let b₃ := b₂.installHandler n (passHandler c)
  have he : b.openDevice d = b₃.bringUp n := by
    unfold openDevice
    dsimp only
    rw [h.nic_eq, h.context_eq, hh]
  have o₁ : OnlyCard n b b₁ :=
    ((OnlyCard.refl n b).record _).trans (onlyCard_setUp _ n)
  obtain ⟨i₂, hn₂, hs₂⟩ := interrupted_enableContext n b₁ c
  have o₃ : OnlyCard n b₂ (b₃.bringUp n) :=
    (onlyCard_installHandler b₂ n _).trans (onlyCard_bringUp b₃ n)
  have c₂ : b₂.nic n = b₁.nic n := by rw [Bench.nic, hn₂, Bench.nic]
  rw [he]
  refine ⟨((h.onlyCard o₁).interrupted i₂).onlyCard o₃, ?_, ?_, ?_⟩
  · have c₃ : b₃.nic n = { b₁.nic n with handler := some (passHandler c) } := by
      rw [nic_installHandler, c₂]
    unfold Nic.opened
    split
    · next hr =>
      have c₁ : b₁.nic n = b.nic n := nic_setUp_of_ready (b := b.recordDevice d .opened) hr
      rw [nic_bringUp_of_ready (by rw [c₃, c₁]; exact hr), c₃, c₁]
    · next hr =>
      have c₁ : b₁.nic n = (b.nic n).emptied :=
        nic_setUp_of_not_ready (b := b.recordDevice d .opened) hr
      rw [nic_bringUp_of_not_ready (by rw [c₃, c₁]; exact hr), c₃, c₁]
      -- Setting up and bringing up both empty the rings.
      show ({ (b.nic n).emptied.emptied with handler := _, gate := _ } : Nic) = _
      rw [Nic.emptied_emptied]
      rfl
  · rw [o₃.context_eq, phase_enableContext, o₁.context_eq]
  · rw [o₃.signal_eq, signal, hs₂, ← signal, o₁.signal_eq]

/-- What a device does to its card before it waits for its context. -/
theorem onlyCard_closing (b : Bench) (n : Handle Nic) (x : Event) :
    OnlyCard n b (((b.record x).shutDown n).removeHandler n) :=
  (((OnlyCard.refl n b).record x).trans (onlyCard_shutDown _ n)).trans (onlyCard_removeHandler _ n)

/-- Disabling a context whose pass is not running. -/
theorem disableContext_eq (h : (b.context c).phase ≠ .draining) : ∃ log,
    b.disableContext c = ({ b with
      contexts := b.contexts.set c { b.context c with phase := .disabled }
      journal := log ++ b.journal }, .ok ()) := by
  unfold disableContext
  split
  · next hd => exact absurd hd h
  · exact ⟨[.poll c .withdrawn], rfl⟩
  · exact ⟨[], rfl⟩

/-- The bench on which a device was closed, before its counters start again.  The events
are what was written down. -/
def afterClosing (b : Bench) (d : Handle Device) (log : List Event) : Bench :=
  let n := (b.device d).nic
  let c := (b.device d).context
  { b with
    nics := b.nics.set n (b.nic n).closed
    contexts := b.contexts.set c { b.context c with phase := .disabled }
    journal := log ++ b.journal }

/-- Closing a device whose pass is not running puts a card in the place of its card, and
a disabled context in the place of its context. -/
theorem closeDevice_afterClosing (hp : (b.context (b.device d).context).phase ≠ .draining) :
    ∃ log, b.closeDevice d =
      ((b.afterClosing d log).countDevice d fun _ => Counters.zero, .ok ()) := by
  let n := (b.device d).nic
  let c := (b.device d).context
  -- Before it waits for its context, the device stops the card and removes its handler.
  obtain ⟨log₂, e₂⟩ :=
    ((puts_shutDown (b.recordDevice d .closed) n).after_record.modifyNic
      fun x => { x with handler := none }).eq
  rw [nic_modifyNic_self, nic_shutDown] at e₂
  let b₂ : Bench := { b with
    nics := b.nics.set n { b.nic n with gate := (b.nic n).gate.shut, handler := none }
    journal := log₂ ++ b.journal }
  obtain ⟨log₃, e₃⟩ := disableContext_eq (b := b₂) (c := c) hp
  let b₃ : Bench := { b₂ with
    contexts := b.contexts.set c { b.context c with phase := .disabled }
    journal := log₃ ++ b₂.journal }
  -- The last line of the journal depends on what was left over, and nothing else does.
  let left := (b₃.tearDown n).2
  obtain ⟨log₄, e₄⟩ := ((puts_tearDown b₃ n).recordIf (!left.isEmpty)
    (.device (b.device d).name.text (.released left.length))).eq
  have hn : b₃.nic n = { b.nic n with gate := (b.nic n).gate.shut, handler := none } :=
    b.nics.get_set_self n _
  rw [nic_recordIf, nic_tearDown, hn] at e₄
  refine ⟨log₄ ++ (log₃ ++ log₂), ?_⟩
  unfold closeDevice
  dsimp only
  rw [show ((b.recordDevice d .closed).shutDown (b.device d).nic).removeHandler
    (b.device d).nic = b₂ from e₂, show b₂.disableContext (b.device d).context = (b₃, .ok ()) from e₃]
  dsimp only
  rw [e₄, Gate.isReady_shut, show b₃.nics = b.nics.set n _ from rfl, Store.set_set]
  simp only [afterClosing, List.append_assoc]
  rfl

/-- Closing a device whose pass is not running comes to this, before its counters start
again: its card is as new, its context is disabled, and the signal and the peers stay as
they are. -/
theorem closeDevice_eq (h : Attached d n c s b) (hp : (b.context c).phase ≠ .draining) :
    ∃ b', b.closeDevice d = (b'.countDevice d fun _ => Counters.zero, .ok ()) ∧
      Attached d n c s b' ∧ b'.nic n = (b.nic n).closed ∧ (b'.context c).phase = .disabled ∧
      b'.signal s = b.signal s ∧ b'.peers = b.peers := by
  obtain ⟨log, he⟩ := closeDevice_afterClosing (b := b) (d := d) (by rw [h.context_eq]; exact hp)
  have hc : (b.afterClosing d log).context c = { b.context c with phase := .disabled } := by
    rw [← h.context_eq]
    exact b.contexts.get_set_self _ _
  have hn : (b.afterClosing d log).nic n = (b.nic n).closed := by
    rw [← h.nic_eq]
    exact b.nics.get_set_self _ _
  refine ⟨_, he, ⟨h.nic_eq, h.context_eq, ?_⟩, hn, ?_, rfl, rfl⟩
  · rw [hc]
    exact h.request_eq
  · rw [hc]

/-- Closing a device whose pass is not running: its card is as new, its context
is disabled, and the signal stays as it is. -/
theorem closeDevice_spec (h : Attached d n c s b) (hp : (b.context c).phase ≠ .draining) :
    (b.closeDevice d).2 = .ok () ∧ Attached d n c s (b.closeDevice d).1 ∧
      (b.closeDevice d).1.nic n = (b.nic n).closed ∧
      ((b.closeDevice d).1.context c).phase = .disabled ∧
      (b.closeDevice d).1.signal s = b.signal s := by
  obtain ⟨b', he, ha, hn, hc, hs, -⟩ := closeDevice_eq h hp
  rw [he]
  exact ⟨rfl, ha.countDevice d fun _ => Counters.zero, hn, hc, hs⟩

/-- Closing a device whose pass is running never comes to an end. -/
theorem closeDevice_of_draining (h : Attached d n c s b) (hp : (b.context c).phase = .draining) :
    (b.closeDevice d).2 = .error .waitsForItself := by
  have o₂ : OnlyCard n b (((b.recordDevice d .closed).shutDown n).removeHandler n) :=
    onlyCard_closing b n _
  unfold closeDevice
  dsimp only
  rw [h.nic_eq, h.context_eq, disableContext, o₂.context_eq, hp]

/-! ## Frames -/

/-- The handler of a device masks the card and schedules the context. -/
theorem interrupt_passHandler (ha : (b.nic n).gate.armed = true)
    (hh : (b.nic n).handler = some (passHandler c)) :
    (b.interrupt n).1 =
      (((b.record (.nic n (.notified (passHandler c)))).mask n).schedule c).1 := by
  rw [interrupt, if_pos ha, hh]
  rfl

/-- A frame that finds a device listening schedules its context and raises its
signal. -/
theorem deliver_listening (h : Attached d n c s b) (hr : (b.nic n).gate.isReady = true)
    (ha : (b.nic n).gate.armed = true) (hh : (b.nic n).handler = some (passHandler c))
    (hi : (b.context c).phase = .idle) (hnil : (b.nic n).rx.toList = []) (f : Frame) :
    ((b.deliver n f).1.context c).phase = .scheduled ∧
      ((b.deliver n f).1.signal s).isPending = true := by
  have ho := onlyCard_accept b n .receive f
  have hc := b.accept_control n .receive f
  rcases b.deliver_cases n f with ⟨hno, -⟩ | ⟨-, -, p, e, hd⟩
  · exact absurd (accept_of_nil (d := .receive) hr hnil f) hno
  · rw [hd, interrupt_passHandler (by rw [hc.gate]; exact ha) (by rw [hc.handler]; exact hh)]
    generalize hb :
      ((b.accept n .receive f).1.record (.nic n (.notified (passHandler c)))).mask n = b₁
    have ho₁ : OnlyCard n b b₁ := hb ▸ (ho.record _).trans (onlyCard_mask _ n)
    have hi₁ : (b₁.context c).phase = .idle := by rw [ho₁.context_eq, hi]
    have hs := b₁.isPending_request c
    rw [(h.onlyCard ho₁).request_eq] at hs
    rw [schedule_of_idle hi₁, context_recordIf, signal_recordIf]
    exact ⟨phase_request b₁ c, hs⟩

/-- Nothing on the receive side of a card differs between two benches, and no
signal was raised but the hook. -/
structure TransmitSide (n : Handle Nic) (b b' : Bench) : Prop where
  control : (b.nic n).SameControl (b'.nic n)
  rx : (b'.nic n).rx = (b.nic n).rx
  contexts : b'.contexts = b.contexts
  signals : b'.signals = b.signals ∨
    ∃ t, (b.nic n).hook = some t ∧ b'.signals = (b.raise t).signals

theorem transmitSide_transmit (b : Bench) (n : Handle Nic) (f : Frame) :
    TransmitSide n b (b.transmit n f).1 := by
  have ho := onlyCard_accept b n .transmit f
  have hc := b.accept_control n .transmit f
  have hx : ((b.accept n .transmit f).1.nic n).rx = (b.nic n).rx :=
    ring_accept_of_ne (d := .transmit) (e := .receive) (by decide) b n f
  rcases b.transmit_cases n f with ht | ⟨t, hk, ht⟩
  · rw [ht]
    exact ⟨hc, hx, ho.contexts, Or.inl ho.signals⟩
  · rw [ht]
    refine ⟨hc, hx, ho.contexts, Or.inr ⟨t, hk, ?_⟩⟩
    show (b.accept n .transmit f).1.signals.modify t Signal.raise = b.signals.modify t Signal.raise
    rw [ho.signals]

theorem Attached.transmit (h : Attached d n c s b) (f : Frame) :
    Attached d n c s (b.transmit n f).1 :=
  (h.onlyCard (onlyCard_accept b n .transmit f)).interrupted (b.transmit_eq n f).2

/-- Sending a frame leaves the receive side of the card alone. -/
theorem send_spec (h : Attached d n c s b) (f : Frame) :
    Attached d n c s (b.send d f).1 ∧ TransmitSide n b (b.send d f).1 := by
  unfold send
  dsimp only
  split
  -- A frame that is too long never gets to the card.
  · exact ⟨((h.record _).record _).countDevice d _, ⟨rfl, rfl, rfl⟩, rfl, rfl, Or.inl rfl⟩
  · generalize hb : b.recordDevice d (.frameSeen Direction.transmit.word f) = b₁
    have h₁ : Attached d n c s b₁ := hb ▸ h.record _
    have hs : TransmitSide n b (b₁.transmit n f).1 := by
      subst hb
      obtain ⟨hc, hx, hp, hg⟩ := transmitSide_transmit _ n f
      exact ⟨hc, hx, hp, hg⟩
    have ha := h₁.transmit f
    rw [h₁.nic_eq]
    split
    · next b' ht =>
      rw [ht] at hs ha
      dsimp only
      exact ⟨ha.countDevice d _, hs.control, hs.rx, hs.contexts, hs.signals⟩
    · next b' r ht =>
      rw [ht] at hs ha
      dsimp only
      exact ⟨ha.countDevice d _, hs.control, hs.rx, hs.contexts, hs.signals⟩

/-! ## Passes -/

/-- The phase and the card do not change when a signal is taken. -/
theorem takeSignal_spec (b : Bench) (s : Handle Signal) :
    (b.takeSignal s).2 = (b.signal s).isPending ∧
      ((b.takeSignal s).1.signal s).isPending = false ∧ (b.takeSignal s).1.nics = b.nics ∧
      (b.takeSignal s).1.contexts = b.contexts := by
  refine ⟨rfl, ?_, rfl, rfl⟩
  rw [takeSignal, signal_modifySignal_self, Signal.isPending_clear]

/-- A step of the run loop that finds no request. -/
theorem serve_of_not_pending (h : Attached d n c s b) (hs : (b.signal s).isPending = false)
    (sink : Sink γ) (g : γ) : serve d sink (b, g) = (((b.takeSignal s).1, g), none) := by
  have ht : ¬ (b.takeSignal s).2 = true := by
    rw [(b.takeSignal_spec s).1, hs]
    decide
  unfold serve
  dsimp only
  rw [h.context_eq, h.request_eq, if_neg ht]

/-- A step of the run loop that finds a request. -/
theorem serve_of_pending (h : Attached d n c s b) (hs : (b.signal s).isPending = true)
    (sink : Sink γ) (g : γ) :
    serve d sink (b, g) = ((pollDevice d sink ((b.takeSignal s).1, g)).1,
      some (pollDevice d sink ((b.takeSignal s).1, g)).2) := by
  have ht : (b.takeSignal s).2 = true := by rw [(b.takeSignal_spec s).1, hs]
  unfold serve
  dsimp only
  rw [h.context_eq, h.request_eq, if_pos ht]

/-- The three ways in which a device serves a poll.  Only a scheduled context
runs a pass; a disabled one answers with an empty pass, and any other is a
fault. -/
theorem pollDevice_cases (h : Attached d n c s b) (sink : Sink γ) (g : γ) :
    ((b.context c).phase = .scheduled ∧ ∃ b' k,
      pump (·.take n .receive) (counting d sink) (b.device d).weight
        ((b.recordDevice d .polled).startPass c, g) = (b', k) ∧
      pollDevice d sink (b, g) = ((b'.1.endPass c n k (b.device d).weight, b'.2),
        .ok ⟨k, decide (k < (b.device d).weight)⟩)) ∨
    ((b.context c).phase = .disabled ∧ ∃ e,
      pollDevice d sink (b, g) = (((b.recordDevice d .polled).record e, g), .ok ⟨0, true⟩)) ∨
    (((b.context c).phase = .idle ∨ (b.context c).phase = .draining) ∧ ∃ e,
      pollDevice d sink (b, g) = (((b.recordDevice d .polled).record e, g),
        .error (.pollUnrequested (b.context c).phase))) := by
  have hc : (b.recordDevice d .polled).context c = b.context c := rfl
  unfold pollDevice
  dsimp only
  rw [h.nic_eq, h.context_eq, poll, hc]
  cases hp : (b.context c).phase with
  | scheduled => exact Or.inl ⟨rfl, _, _, rfl, rfl⟩
  | disabled => exact Or.inr (Or.inl ⟨rfl, _, rfl⟩)
  | idle => exact Or.inr (Or.inr ⟨Or.inl rfl, _, rfl⟩)
  | draining => exact Or.inr (Or.inr ⟨Or.inr rfl, _, rfl⟩)

end Bench
end SoftNic
