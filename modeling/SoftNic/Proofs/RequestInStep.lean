import SoftNic.Proofs.EndpointLoop

/-! # Requests and contexts in step

Two things say that an endpoint waits for a pass: its signal is pending, and its
context is scheduled.  They are changed in different places, and a turn of the run
loop is a fault if they ever disagree in one direction, and a stall if they disagree
in the other.  They do not disagree, whatever the endpoint does and whatever others
do with its card and with theirs at the same time (`EndpointRun`): work on the cards
from either side, take them up and down, put handlers of their own in the place of
the endpoint's, or ask its context for a pass.

All that is asked of the others is to keep their hands off what the endpoint owns:
no handler of theirs raises its signal, and nobody but the endpoint drives its
device.
-/
namespace SoftNic

/-- What is done with an endpoint. -/
inductive EndpointOp
  | up
  | down
  | send (f : Frame)
  /-- One turn of the run loop. -/
  | turn
  | receive
  deriving DecidableEq

namespace Bench

variable {e x : Handle Endpoint} {d : Handle Device} {n m : Handle Nic}
  {c : Handle PollContext} {s : Handle Signal} {b b' : Bench}

/-! ## Runs -/

/-- Do something with an endpoint. -/
def endpointStep (e : Handle Endpoint) (b : Bench) : EndpointOp → Bench
  | .up => b.openEndpoint e
  | .down => (b.closeEndpoint e).1
  | .send f => (b.sendEndpoint e f).1
  | .turn => (b.turnEndpoint e).1
  | .receive => (b.receiveEndpoint e).1

/-- **What may happen on the bench of an endpoint.**  The endpoints that are driven
are this one and any others, the cards are its own and any others.  The wire of a
card may do all of this from inside a transfer, which is why a run may also stand
where a transfer calls its sink. -/
inductive EndpointRun (e : Handle Endpoint) : Bench → Bench → Prop
  | done (b : Bench) : EndpointRun e b b
  | trans {b b' b'' : Bench} : EndpointRun e b b' → EndpointRun e b' b'' → EndpointRun e b b''
  | endpoint (b : Bench) (x : Handle Endpoint) (hx : b.endpoints.Has x) (op : EndpointOp) :
    EndpointRun e b (endpointStep x b op)
  | card (b : Bench) (m : Handle Nic) (op : CardOp) : EndpointRun e b (cardStep m b op)
  /-- Any handler that does not raise the endpoint's signal. -/
  | installHandler (b : Bench) (m : Handle Nic) (as : List HandlerAction)
    (has : ∀ a ∈ as, a.Leaves b (b.endpoint e).request) : EndpointRun e b (b.installHandler m as)
  /-- A transfer to the wire; each call of the sink is a run itself. -/
  | drain {γ : Type} (b : Bench) (m : Handle Nic) (budget : Nat) (sink : Sink γ) (g : γ)
    (calls : ∀ f y, Hands (·.take m .transmit) sink budget (b, g) f y →
      EndpointRun e y.1 (sink f y).1) :
    EndpointRun e b (drain m budget sink (b, g)).1.1
  /-- A transfer to the wire is under way, and its sink is called. -/
  | inside {γ : Type} (b : Bench) (m : Handle Nic) (budget : Nat) (sink : Sink γ) (g : γ)
    (calls : ∀ f y, Hands (·.take m .transmit) sink budget (b, g) f y →
      EndpointRun e y.1 (sink f y).1)
    (f : Frame) (y : Bench × γ) (h : Hands (·.take m .transmit) sink budget (b, g) f y) :
    EndpointRun e b y.1
  | newEndpoint (b : Bench) (z : Settings) (m : Handle Nic) : EndpointRun e b (b.addEndpoint z m).2
  /-- The wire counts, or something is written down. -/
  | elsewhere (b b' : Bench) (hn : b'.nics = b.nics) (hc : b'.contexts = b.contexts)
    (hs : b'.signals = b.signals) (hd : b'.devices = b.devices)
    (he : b'.endpoints = b.endpoints) : EndpointRun e b b'

/-! ## The invariant -/

/-- **The signal of an endpoint is pending exactly while its context waits for a
pass.**  Outside a pass, that is; and no pass is ever running while something else
is done.  An endpoint that is down holds no frames. -/
structure InStep (e : Handle Endpoint) (d : Handle Device) (n : Handle Nic)
    (c : Handle PollContext) (s : Handle Signal) (b : Bench) : Prop
    extends Owned e d n c s b where
  pass : (b.context c).phase ≠ .draining
  pending_iff : (b.signal s).isPending = true ↔ (b.context c).phase = .scheduled
  held : (b.context c).phase = .disabled → (b.endpoint e).backlog = []

theorem Owned.inStep_of_down (h : Owned e d n c s b) (hno : (b.signal s).isPending = false)
    (hp : (b.context c).phase = .disabled) (hnil : (b.endpoint e).backlog = []) :
    InStep e d n c s b :=
  ⟨h, by rw [hp]; decide, by rw [hno, hp]; decide, fun _ => hnil⟩

theorem Owned.inStep_of_idle (h : Owned e d n c s b) (hno : (b.signal s).isPending = false)
    (hp : (b.context c).phase = .idle) : InStep e d n c s b :=
  ⟨h, by rw [hp]; decide, by rw [hno, hp]; decide, fun hd => nomatch hp.symm.trans hd⟩

theorem Owned.inStep_of_asked (h : Owned e d n c s b) (hs : (b.signal s).isPending = true)
    (hp : (b.context c).phase = .scheduled) : InStep e d n c s b :=
  ⟨h, by rw [hp]; decide, ⟨fun _ => hp, fun _ => hs⟩, fun hd => nomatch hp.symm.trans hd⟩

/-- What others do keeps the two in step. -/
theorem InStep.aside (h : InStep e d n c s b) (ha : Aside e c s b b') : InStep e d n c s b' := by
  have ho := h.toOwned.transfer ha.ties
  rcases ha.nudged with ⟨hp, hs⟩ | ⟨-, hp, hs⟩
  · exact ⟨ho, by rw [hp]; exact h.pass, by rw [hp, hs]; exact h.pending_iff,
      by rw [hp, ha.backlog]; exact h.held⟩
  · exact ho.inStep_of_asked hs hp

/-! ## The endpoint itself -/

theorem InStep.openEndpoint (h : InStep e d n c s b) : InStep e d n c s (b.openEndpoint e) := by
  obtain ⟨-, -, hp, hs⟩ := openDevice_spec h.toAttached
  have hq : SameTies s b (b.openDevice d) :=
    (quiet_openDevice (by rw [h.context_eq]; exact h.has_context)).ties
  unfold Bench.openEndpoint
  rw [h.device_eq]
  refine ⟨h.toOwned.transfer hq, ?_, ?_, ?_⟩
  · rw [hp]
    intro hd
    exact h.pass ((PollPhase.enabled_eq_iff (by decide)).mp hd).1
  · rw [hp, hs, h.pending_iff, PollPhase.enabled_eq_iff (by decide)]
    exact (and_iff_left (by decide)).symm
  · rw [hp]
    exact fun hd => absurd hd (PollPhase.enabled_ne_disabled _)

/-- Closing an endpoint whose pass is not running succeeds, and drops its
request. -/
theorem InStep.closeEndpoint (h : InStep e d n c s b) :
    InStep e d n c s (b.closeEndpoint e).1 ∧ (b.closeEndpoint e).2 = .ok () := by
  obtain ⟨hok, ha, -, hp, -⟩ := closeDevice_spec h.toAttached h.pass
  have ho := h.toOwned.transfer (quiet_closeDevice b d).ties
  unfold Bench.closeEndpoint
  rw [h.device_eq, show b.closeDevice d = ((b.closeDevice d).1, .ok ()) from Prod.ext rfl hok]
  generalize (b.closeDevice d).1 = b₁ at ho hp
  have hb := ho.transfer (sameTies_setBacklog b₁ e fun _ => [])
  refine ⟨?_, rfl⟩
  dsimp only
  rw [hb.signal_eq]
  exact (hb.transfer (sameTies_takeSignal _ s)).inStep_of_down (takeSignal_spec _ s).2.1 hp
    (congrArg Endpoint.backlog (Store.get_modify_self _ e _))

theorem InStep.sendEndpoint (h : InStep e d n c s b) (f : Frame) :
    InStep e d n c s (b.sendEndpoint e f).1 :=
  h.aside (h.toOwned.aside_send _ f)

/-- After a pass the signal and the context are in step, if the request was taken
before it. -/
theorem Owned.inStep_endPass (h : Owned e d n c s b) (hno : (b.signal s).isPending = false)
    (handled budget : Nat) : InStep e d n c s (b.endPass c n handled budget) := by
  unfold endPass
  dsimp only
  split
  · have hi : InStep e d n c s (b.setPhase c .idle) :=
      (h.transfer (sameTies_setPhase b c .idle)).inStep_of_idle hno
        (congrArg PollContext.phase (context_setPhase b c .idle))
    exact hi.aside ((hi.toOwned.aside_rearm n).record _)
  · have hs := b.isPending_request c
    rw [h.request_eq] at hs
    exact (h.transfer ((sameTies_request b c).trans (sameTies_record _ _))).inStep_of_asked hs
      (phase_request b c)

/-- A turn never is a fault: whoever finds the request pending finds the context
waiting for its pass. -/
theorem InStep.turnEndpoint (h : InStep e d n c s b) :
    InStep e d n c s (b.turnEndpoint e).1 ∧ (b.turnEndpoint e).2 = .ok () := by
  rcases turnEndpoint_cases h.toAttached h.device_eq h.signal_eq with
    ⟨hno, ht⟩ | ⟨-, -, fs, b', ht, hc, -, hs, -⟩ | ⟨hp, hq, -⟩
  · rw [ht]
    have htake : ((b.takeSignal s).1.signal s).isPending = false := (b.takeSignal_spec s).2.1
    refine ⟨⟨h.toOwned.transfer (sameTies_takeSignal b s), h.pass, ?_, h.held⟩, rfl⟩
    rw [htake, ← hno]
    exact h.pending_iff
  · rw [ht]
    have ho := h.toOwned.transfer (((carried_passStart b).trans hc).ties s)
    have hno : (b'.signal s).isPending = false := by
      rw [signal, hs]
      exact (b.takeSignal_spec s).2.1
    exact ⟨ho.inStep_endPass hno _ _, rfl⟩
  · exact absurd (h.pending_iff.mp hp) hq

theorem InStep.popBacklog (h : InStep e d n c s b) : InStep e d n c s (b.popBacklog e).1 := by
  obtain ⟨hb | ⟨rest, hb⟩, hl⟩ := popBacklog_eq b e
  · rw [hb]
    exact h
  · rw [hb] at hl ⊢
    refine ⟨h.toOwned.transfer (sameTies_setBacklog b e fun _ => rest), h.pass, h.pending_iff,
      fun hd => ?_⟩
    rw [h.held hd] at hl
    exact (List.append_eq_nil_iff.mp hl).2

theorem InStep.receiveEndpoint (h : InStep e d n c s b) :
    InStep e d n c s (b.receiveEndpoint e).1 ∧ ∃ o, (b.receiveEndpoint e).2 = .ok o := by
  rw [receiveEndpoint_eq]
  split
  · obtain ⟨ht, hok⟩ := h.turnEndpoint
    rw [show b.turnEndpoint e = ((b.turnEndpoint e).1, .ok ()) from Prod.ext rfl hok]
    exact ⟨ht.popBacklog, _, rfl⟩
  · exact ⟨h.popBacklog, _, rfl⟩

theorem InStep.endpointStep (h : InStep e d n c s b) (op : EndpointOp) :
    InStep e d n c s (endpointStep e b op) := by
  cases op with
  | up => exact h.openEndpoint
  | down => exact h.closeEndpoint.1
  | send f => exact h.sendEndpoint f
  | turn => exact h.turnEndpoint.1
  | receive => exact h.receiveEndpoint.1

/-! ## Other endpoints -/

/-- Every backlog belongs to one endpoint. -/
theorem aside_setBacklog (b : Bench) (hne : x ≠ e) (f : List Frame → List Frame) :
    Aside e c s b (b.modifyEndpoint x fun y => { y with backlog := f y.backlog }) :=
  .of_eq (sameTies_setBacklog b x f) rfl rfl
    (congrArg Endpoint.backlog (b.endpoints.get_modify_of_ne hne.symm _))

theorem aside_popBacklog (b : Bench) (hne : x ≠ e) : Aside e c s b (b.popBacklog x).1 := by
  rcases (popBacklog_eq b x).1 with hb | ⟨rest, hb⟩
  · rw [hb]
    exact .refl b
  · rw [hb]
    exact aside_setBacklog b hne fun _ => rest

section Others

variable (h : Owned e d n c s b) (hx : b.endpoints.Has x) (hne : x ≠ e)

include h hx hne

/-- What another endpoint has is not the endpoint's. -/
theorem Owned.other : b.contexts.Has (b.device (b.endpoint x).device).context ∧
    (b.device (b.endpoint x).device).context ≠ c ∧ (b.endpoint x).request ≠ s := by
  obtain ⟨hd, hds⟩ := h.endpoints x hx
  obtain ⟨hdne, hs⟩ := hds hne
  obtain ⟨hk, hkne⟩ := h.devices _ hd
  exact ⟨hk, hkne hdne, hs⟩

theorem Owned.aside_close : Aside e c s b (b.closeEndpoint x).1 := by
  obtain ⟨-, hkc, hts⟩ := h.other hx hne
  have ha : Aside e c s b (b.closeDevice (b.endpoint x).device).1 :=
    (quiet_closeDevice b _).aside hkc.symm
  unfold Bench.closeEndpoint
  split
  · next b' f hb =>
    rw [hb] at ha
    exact ha
  · next b' hb =>
    rw [hb] at ha
    have hset := aside_setBacklog (c := c) (s := s) b' hne fun _ => []
    have hreq := ((ha.trans hset).ties.endpoint x).2
    exact (ha.trans hset).trans (aside_takeSignal _ (by rw [hreq]; exact hts))

/-- The end of a pass of another context. -/
theorem Owned.aside_turn : Aside e c s b (b.turnEndpoint x).1 := by
  obtain ⟨hk, hkc, hts⟩ := h.other hx hne
  have hatt : Attached (b.endpoint x).device (b.device (b.endpoint x).device).nic
      (b.device (b.endpoint x).device).context
      (b.context (b.device (b.endpoint x).device).context).request b := ⟨rfl, rfl, rfl⟩
  generalize (b.device (b.endpoint x).device).nic = m at hatt
  generalize (b.device (b.endpoint x).device).context = k at hk hkc hatt
  have htake : Aside e c s b (b.takeSignal (b.endpoint x).request).1 := aside_takeSignal b hts
  rcases turnEndpoint_cases hatt rfl rfl with
    ⟨-, ht⟩ | ⟨-, -, fs, b', ht, hc, hcs, hss, -⟩ | ⟨-, -, y, answer, ht, -⟩
  · rw [ht]
    exact htake
  · rw [ht]
    have hstart : Aside e c s b (b.passStart (b.endpoint x).device k (b.endpoint x).request) :=
      (htake.record _).trans ((((Quiet.refl _).setPhase .draining).record _).aside hkc.symm)
    have hpump : Aside e c s (b.passStart (b.endpoint x).device k (b.endpoint x).request) b' :=
      .of_eq (hc.ties s) (by rw [context, hcs, ← context]) (by rw [signal, hss, ← signal])
        (by rw [hc.endpoint e hne.symm])
    have hb := hstart.trans hpump
    have ho := h.transfer hb.ties
    refine hb.trans ?_
    unfold Bench.endPass
    dsimp only
    split
    · have hidle : Aside e c s b' (b'.setPhase k .idle) :=
        ((Quiet.refl b').setPhase .idle).aside hkc.symm
      exact (hidle.trans ((ho.transfer hidle.ties).aside_rearm m)).record _
    · exact (ho.aside_request (hb.ties.has_context.mpr hk) hkc).record _
  · rw [ht]
    exact (htake.record _).record y

theorem Owned.aside_endpointStep (op : EndpointOp) : Aside e c s b (endpointStep x b op) := by
  obtain ⟨hk, hkc, -⟩ := h.other hx hne
  cases op with
  | up => exact (quiet_openDevice hk).aside hkc.symm
  | down => exact h.aside_close hx hne
  | send f => exact h.aside_send _ f
  | turn => exact h.aside_turn hx hne
  | receive =>
    have ht := h.aside_turn hx hne
    unfold Bench.endpointStep
    dsimp only
    rw [receiveEndpoint_eq]
    split
    · split
      · next b' f hb =>
        rw [hb] at ht
        exact ht
      · next b' hb =>
        rw [hb] at ht
        exact ht.trans (aside_popBacklog b' hne)
    · exact aside_popBacklog b hne

end Others

/-! ## Cards -/

theorem Owned.aside_cardStep (h : Owned e d n c s b) (m : Handle Nic) (op : CardOp) :
    Aside e c s b (cardStep m b op) := by
  have only : ∀ b', OnlyCard m b b' → SameTies s b b' → Aside e c s b b' :=
    fun b' => (Aside.refl b).onlyCard
  cases op with
  | setUp => exact only _ (onlyCard_setUp b m) (sameTies_setUp b m)
  | bringUp => exact only _ (onlyCard_bringUp b m) (sameTies_bringUp b m)
  | shutDown => exact only _ (onlyCard_shutDown b m) (sameTies_shutDown b m)
  | tearDown => exact only _ (onlyCard_tearDown b m) (sameTies_tearDown b m)
  | rearm => exact h.aside_rearm m
  | mask => exact only _ (onlyCard_mask b m) (sameTies_mask b m)
  | removeHandler => exact only _ (onlyCard_removeHandler b m) (sameTies_removeHandler b m)
  | transmit f => exact h.aside_transmit m f
  | deliver f => exact h.aside_deliver m f
  | take i => exact only _ (onlyCard_take b m i) (sameTies_take b m i)

/-! ## Runs keep step -/

theorem InStep.take (h : InStep e d n c s b) (m : Handle Nic) (i : Direction) :
    InStep e d n c s (b.take m i).1 :=
  h.aside (h.toOwned.aside_cardStep m (.take i))

/-- Whatever happens, the endpoint's signal and its context stay in step. -/
theorem EndpointRun.inStep (hr : EndpointRun e b b') (h : InStep e d n c s b) :
    InStep e d n c s b' := by
  -- The calls of a sink are runs themselves, so the induction covers them too.
  induction hr with
  | done b => exact h
  | trans _ _ ih₁ ih₂ => exact ih₂ (ih₁ h)
  | endpoint b x hx op =>
    by_cases hxe : x = e
    · subst hxe
      exact h.endpointStep op
    · exact h.aside (h.toOwned.aside_endpointStep hx hxe op)
  | card b m op => exact h.aside (h.toOwned.aside_cardStep m op)
  | installHandler b m as has =>
    rw [h.signal_eq] at has
    exact h.aside ((Aside.refl b).onlyCard (onlyCard_installHandler b m as)
      (sameTies_installHandler m has))
  | drain b m budget sink g _ ih =>
    exact pump_of_hands (P := fun y => InStep e d n c s y.1) (Q := fun _ y => InStep e d n c s y.1)
      (fun _ _ hb _ => hb.take m .transmit) (fun _ _ _ hb _ => hb.take m .transmit) budget ih h
  | inside b m budget sink g _ f y hy ih =>
    exact hy.invariant (P := fun y => InStep e d n c s y.1) (Q := fun _ y => InStep e d n c s y.1)
      (fun _ _ _ hb _ => hb.take m .transmit) ih h
  | newEndpoint b z m =>
    have hmade : b.addEndpoint z m = ((b.addEndpoint z m).1, (b.addEndpoint z m).2) := rfl
    obtain ⟨d', c', s', hj⟩ := joins_of_addEndpoint hmade
    obtain ⟨ho, hc, hs, he⟩ := h.toOwned.joins hj
    exact ⟨ho, by rw [hc]; exact h.pass, by rw [hc, hs]; exact h.pending_iff,
      by rw [hc, he]; exact h.held⟩
  | elsewhere b b' hn hc hs hd he =>
    exact h.aside (.of_eq (.of_nics hn (by rw [hc]) (by rw [hs])
      (fun k => by rw [context, hc, ← context]) hd he) (by rw [context, hc, ← context])
      (by rw [signal, hs, ← signal]) (by rw [Bench.endpoint, he, ← Bench.endpoint]))

/-- A new endpoint on a closed bench is down, and nothing is asked of it. -/
theorem Joins.inStep {z : Settings} (hj : Joins z e d n c s b b') (hb : b.Closed) :
    InStep e d n c s b' := by
  obtain ⟨hp, hs, hnil, -⟩ := hj.fresh
  exact (hj.owned hb).inStep_of_down (by rw [hs]; rfl) hp hnil

/-- **A request is pending exactly while the context is scheduled.**  Put an
endpoint on any bench that is closed, and let anything happen there.  Then its signal
is pending if and only if its context is scheduled; and so nothing that is done with
the endpoint is a fault. -/
theorem pending_iff_scheduled {b₀ b₁ : Bench} {z : Settings} (hb : b₀.Closed)
    (he : b₀.addEndpoint z n = (e, b₁)) (hr : EndpointRun e b₁ b) :
    ((b.signal (b.endpoint e).request).isPending = true ↔
      (b.context (b.device (b.endpoint e).device).context).phase = .scheduled) ∧
    (b.closeEndpoint e).2 = .ok () ∧ (b.turnEndpoint e).2 = .ok () ∧
    ∃ o, (b.receiveEndpoint e).2 = .ok o := by
  obtain ⟨d, c, s, hj⟩ := joins_of_addEndpoint he
  have h := hr.inStep (hj.inStep hb)
  rw [h.signal_eq, h.device_eq, h.context_eq]
  exact ⟨h.pending_iff, h.closeEndpoint.2, h.turnEndpoint.2, h.receiveEndpoint.2⟩

/-- Two endpoints on one card of the least size.  The first is open; the second is
opened and takes the card over; and while the wire collects a frame, it delivers
one. -/
theorem pending_iff_scheduled_shared :
    ∃ b₀ n e b₁ b, Closed b₀ ∧ b₀.addEndpoint .standard n = (e, b₁) ∧ EndpointRun e b₁ b ∧
      ((b.signal (b.endpoint e).request).isPending = true ↔
        (b.context (b.device (b.endpoint e).device).context).phase = .scheduled) ∧
      (b.closeEndpoint e).2 = .ok () ∧ (b.turnEndpoint e).2 = .ok () ∧
      ∃ o, (b.receiveEndpoint e).2 = .ok o := by
  obtain ⟨x, hx⟩ : ∃ x, Nic.ofSizes 2 2 = .ok x := ⟨_, rfl⟩
  obtain ⟨-, hh, hk, -⟩ := Nic.new_of_ofSizes hx
  obtain ⟨n, b, hn⟩ : ∃ n b, (default : Bench).addNic x = (n, b) := ⟨_, _, rfl⟩
  obtain ⟨e', b', he'⟩ : ∃ e' b', b.addEndpoint .standard n = (e', b') := ⟨_, _, rfl⟩
  obtain ⟨d', c', s', hj⟩ := joins_of_addEndpoint he'
  have hb : Closed b := closed_default.addNic hn hk hh
  have hb₀ : Closed (b'.openEndpoint e') :=
    (hj.closed hb).of_sameTies fun t =>
      (quiet_openDevice ((hj.closed hb).devices _
        ((hj.closed hb).endpoints e' (hj.owned hb).has_endpoint).1)).ties
  obtain ⟨e, b₁, he⟩ : ∃ e b₁, (b'.openEndpoint e').addEndpoint .standard n = (e, b₁) := ⟨_, _, rfl⟩
  obtain ⟨d, c, s, hj₁⟩ := joins_of_addEndpoint he
  let f : Frame := ⟨[1, 2, 3]⟩
  let back : Sink Unit := fun f y => ((y.1.deliver n f).1, y.2)
  have run : EndpointRun e b₁ _ :=
    ((EndpointRun.endpoint b₁ e (hj₁.owned hb₀).has_endpoint .up).trans
      (.card _ n (.transmit f))).trans
      (.drain _ n 1 back () fun f y _ => .card y.1 n (.deliver f))
  exact ⟨_, n, e, b₁, _, hb₀, he, run, pending_iff_scheduled hb₀ he run⟩

end Bench
end SoftNic
