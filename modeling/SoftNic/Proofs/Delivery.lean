import SoftNic.Proofs.ReceiveWakeup
import SoftNic.Proofs.RequestInStep
import SoftNic.Proofs.StaleRequest

/-! # Delivery through an endpoint

A frame that a card accepts for an endpoint waits in the ring, then in the backlog,
and is handed out when the endpoint is asked for it.  This module proves that between
two openings of an endpoint nothing is lost on that way, doubled or overtaken, and
that nothing stalls: as long as a frame waits in either place, asking for one yields
one.

The first half is conservation over two queues that are filled by different parties
(`Bench.waiting`).  The second is where wakeups count: asking takes at most one turn,
a turn runs a pass only on request, and a pass hands over only as much as its weight
allows.  `Bench.Listening` carries what makes the turn succeed.

What an endpoint holds when it is opened is what it held before.  A card that others
took down behind its back leaves the backlog where it is, and opening the endpoint
again does not release it; only closing does.
-/
namespace SoftNic

namespace Bench

variable {e : Handle Endpoint} {d : Handle Device} {n : Handle Nic} {c : Handle PollContext}
  {s : Handle Signal} {b b' : Bench} {l l' : Receipts}

/-! ## Runs -/

/-- Something happens elsewhere on the bench, which is nobody's business here. -/
structure Elsewhere (e : Handle Endpoint) (n : Handle Nic) (b b' : Bench) : Prop where
  nic : b'.nic n = b.nic n
  endpoint : b'.endpoint e = b.endpoint e
  device : b'.device (b.endpoint e).device = b.device (b.endpoint e).device
  context : b'.context (b.device (b.endpoint e).device).context =
    b.context (b.device (b.endpoint e).device).context
  signal : b'.signal (b.endpoint e).request = b.signal (b.endpoint e).request

/-- **What may happen while an endpoint is open.**  The endpoint has the card to
itself: nobody else reads its receive ring, masks it, or takes it down.  A sink of the
wire keeps the receipts in its own memory. -/
inductive OpenRun (e : Handle Endpoint) (n : Handle Nic) :
    Bench → Receipts → Bench → Receipts → Prop
  | done (b : Bench) (l : Receipts) : OpenRun e n b l b l
  | trans {b b' b'' : Bench} {l l' l'' : Receipts} :
    OpenRun e n b l b' l' → OpenRun e n b' l' b'' l'' → OpenRun e n b l b'' l''
  | deliver (b : Bench) (l : Receipts) (f : Frame) :
    OpenRun e n b l (b.deliver n f).1 (l.enter (b.deliver n f).2 f)
  | rearm (b : Bench) (l : Receipts) : OpenRun e n b l (b.rearm n) l
  | send (b : Bench) (l : Receipts) (f : Frame) : OpenRun e n b l (b.sendEndpoint e f).1 l
  | turn (b : Bench) (l : Receipts) : OpenRun e n b l (b.turnEndpoint e).1 l
  | receive (b : Bench) (l : Receipts) :
    OpenRun e n b l (b.receiveEndpoint e).1 (l.handOut (b.receiveEndpoint e).2)
  /-- A transfer to the wire; each call of the sink is a run itself. -/
  | drain {γ : Type} (b : Bench) (l : Receipts) (budget : Nat) (sink : Sink (γ × Receipts)) (g : γ)
    (calls : ∀ f y, Hands (·.take n .transmit) sink budget (b, g, l) f y →
      OpenRun e n y.1 y.2.2 (sink f y).1 (sink f y).2.2) :
    OpenRun e n b l (drain n budget sink (b, g, l)).1.1 (drain n budget sink (b, g, l)).1.2.2
  /-- A transfer to the wire is under way, and its sink is called. -/
  | inside {γ : Type} (b : Bench) (l : Receipts) (budget : Nat) (sink : Sink (γ × Receipts)) (g : γ)
    (calls : ∀ f y, Hands (·.take n .transmit) sink budget (b, g, l) f y →
      OpenRun e n y.1 y.2.2 (sink f y).1 (sink f y).2.2)
    (f : Frame) (y : Bench × γ × Receipts)
    (h : Hands (·.take n .transmit) sink budget (b, g, l) f y) : OpenRun e n b l y.1 y.2.2
  | elsewhere (b b' : Bench) (l : Receipts) (h : Elsewhere e n b b') : OpenRun e n b l b' l

/-! ## The invariant -/

/-- The frames that wait for the user of an endpoint, oldest first. -/
def waiting (e : Handle Endpoint) (n : Handle Nic) (b : Bench) : List Frame :=
  (b.endpoint e).backlog ++ (b.nic n).rx.toList

/-- **An endpoint listens**: its card is ready, it would be woken for a frame that
arrives, and it waits for a pass if it was asked to run one. -/
structure Listening (e : Handle Endpoint) (d : Handle Device) (n : Handle Nic)
    (c : Handle PollContext) (s : Handle Signal) (b : Bench) : Prop
    extends Awake d n c s false b where
  device_eq : (b.endpoint e).device = d
  signal_eq : (b.endpoint e).request = s
  ready : (b.nic n).gate.isReady = true
  hook : (b.nic n).hook ≠ some s
  asks : (b.signal s).isPending = true → (b.context c).phase = .scheduled
  weight : 1 ≤ (b.device d).weight

theorem Listening.tied (h : Listening e d n c s b) : Tied d n c s b :=
  ⟨h.toAttached, h.hook, Or.inl (h.installed h.ready)⟩

/-- While nothing is asked, the line is armed and the ring is empty. -/
theorem Listening.quiet (h : Listening e d n c s b) (hno : (b.signal s).isPending = false) :
    (b.nic n).rx.toList = [] := by
  have hp : (b.context c).phase = .idle := by
    cases hq : (b.context c).phase with
    | disabled => exact absurd hq (h.enabled h.ready)
    | idle => rfl
    | scheduled => exact absurd ((h.asked hq).symm.trans hno) (by decide)
    | draining => exact nomatch h.pass.mp hq
  exact (h.listening h.ready hp).2

/-- The same card, up to its rings and counters, and the same endpoint. -/
theorem Listening.transfer (h : Listening e d n c s b) (ha : Awake d n c s false b')
    (he : (b'.endpoint e).device = (b.endpoint e).device ∧
      (b'.endpoint e).request = (b.endpoint e).request)
    (hw : (b'.device d).weight = (b.device d).weight)
    (hr : (b'.nic n).gate.isReady = (b.nic n).gate.isReady)
    (hk : (b'.nic n).hook = (b.nic n).hook)
    (hq : (b'.signal s).isPending = true → (b'.context c).phase = .scheduled) :
    Listening e d n c s b' where
  toAwake := ha
  device_eq := he.1.trans h.device_eq
  signal_eq := he.2.trans h.signal_eq
  ready := hr.trans h.ready
  hook := by rw [hk]; exact h.hook
  asks := hq
  weight := by rw [hw]; exact h.weight

/-- An operation that moves neither the context nor the signal. -/
theorem Listening.asks_of_eq (h : Listening e d n c s b) (hc : b'.context c = b.context c)
    (hs : b'.signal s = b.signal s) :
    (b'.signal s).isPending = true → (b'.context c).phase = .scheduled := by
  rw [hc, hs]
  exact h.asks

/-- An operation that does so, or schedules the context. -/
theorem Listening.asks_of_cases (h : Listening e d n c s b)
    (hcases : (b'.context c = b.context c ∧ b'.signal s = b.signal s) ∨
      ((b.context c).phase = .idle ∧ (b'.context c).phase = .scheduled)) :
    (b'.signal s).isPending = true → (b'.context c).phase = .scheduled := by
  rcases hcases with ⟨hc, hs⟩ | ⟨-, hp⟩
  · exact h.asks_of_eq hc hs
  · exact fun _ => hp

/-! ## Operations -/

theorem Listening.deliver (h : Listening e d n c s b) (f : Frame) :
    Listening e d n c s (b.deliver n f).1 := by
  have ho := onlyCard_accept b n .receive f
  have hc := b.accept_control n .receive f
  have hi := (b.deliver_eq n f).2
  refine h.transfer (h.toAwake.deliver f) ?_ ?_ (isReady_deliver b n f) ?_
    (h.asks_of_cases (h.tied.deliver f).2)
  · rw [endpoint, hi.endpoints, ho.endpoints, ← endpoint]
    exact ⟨rfl, rfl⟩
  · rw [device, hi.devices, ho.devices, ← device]
  · rw [hi.hook_eq, hc.hook]

theorem Listening.rearm (h : Listening e d n c s b) : Listening e d n c s (b.rearm n) := by
  have hi := interrupted_rearm b n
  refine h.transfer h.toDriven.rearm ?_ ?_ ?_ hi.hook_eq (h.asks_of_cases h.tied.rearm.2)
  · rw [endpoint, hi.endpoints, ← endpoint]
    exact ⟨rfl, rfl⟩
  · rw [device, hi.devices, ← device]
  · rw [Gate.isReady, hi.phase_eq, Gate.isReady]

theorem Listening.sendEndpoint (h : Listening e d n c s b) (f : Frame) :
    Listening e d n c s (b.sendEndpoint e f).1 := by
  unfold Bench.sendEndpoint
  rw [h.device_eq]
  obtain ⟨-, hx, -, hc, hs⟩ := send_spec h.toAttached f
  have ht := sameTies_send (s := s) b d f
  refine h.transfer (h.toAwake.send f) (ht.endpoint e) (ht.weight d) (by rw [hx.gate]) hx.hook
    (h.asks_of_eq (by rw [context, hc, ← context]) ?_)
  rcases hs with hs | ⟨t, htk, hs⟩
  · rw [signal, hs, ← signal]
  · -- The hook is somebody else's signal.
    have hne : s ≠ t := fun he => h.hook (he ▸ htk)
    rw [signal, hs, ← signal, signal_raise_of_ne hne]

theorem Listening.take (h : Listening e d n c s b) (i : Direction) :
    Listening e d n c s (b.take n i).1 := by
  have ho := onlyCard_take b n i
  have hc := b.take_control n i
  refine h.transfer (h.toAwake.take i) ?_ ?_ (by rw [hc.gate]) hc.hook
    (h.asks_of_eq (ho.context_eq c) (ho.signal_eq s))
  · rw [endpoint, ho.endpoints, ← endpoint]
    exact ⟨rfl, rfl⟩
  · rw [ho.device_eq]

theorem Listening.elsewhere (h : Listening e d n c s b) (he : Elsewhere e n b b') :
    Listening e d n c s b' := by
  obtain ⟨hn, hend, hd, hc, hs⟩ := he
  rw [h.device_eq] at hd hc
  rw [h.context_eq] at hc
  rw [h.signal_eq] at hs
  have ha : Attached d n c s b' :=
    ⟨by rw [hd, h.nic_eq], by rw [hd, h.context_eq], by rw [hc, h.request_eq]⟩
  refine h.transfer (h.toAwake.transfer ha (by rw [hc]) (by rw [hs]; exact id) fun _ => ?_) ?_
    (by rw [hd]) (by rw [hn]) (by rw [hn]) (h.asks_of_eq hc hs)
  · rw [hn]
    exact ⟨⟨rfl, rfl, rfl⟩, id⟩
  · rw [hend]
    exact ⟨rfl, rfl⟩

/-! ### Turns -/

/-- The transfer of a pass leaves the device awake and its pass running. -/
theorem Listening.passing {fs : List Frame} (h : Listening e d n c s b)
    (hc : Carried e n fs (b.passStart d c s) b') (hcs : b'.contexts = (b.passStart d c s).contexts)
    (hss : b'.signals = (b.passStart d c s).signals) :
    Awake d n c s true b' ∧ Passing d n c s b' := by
  have hstart : Awake d n c s true (b.passStart d c s) :=
    (h.toAwake.record _).startPass.takeSignal (s := s) (by
      rw [show (((b.record _).startPass c).context c).phase = .draining from
        congrArg PollContext.phase (context_setPhase _ c .draining)]
      decide)
  have hp : (b'.context c).phase = .draining := by
    rw [context, hcs]
    exact congrArg PollContext.phase (context_setPhase _ c .draining)
  have hs : b'.signal s = (b.passStart d c s).signal s := by rw [signal, hss, ← signal]
  have ha : Attached d n c s b' := (hc.ties s).attached hstart.toAttached
  obtain ⟨armed, rx, hn, -⟩ := hc.card
  have hstartn : (b.passStart d c s).nic n = b.nic n := rfl
  have hd : Driven d n c s true b' := by
    refine .of_phase ha hp (by decide) (fun hq => absurd hq (by decide)) fun hr => ?_
    rw [hn, hstartn]
    exact ⟨h.installed h.ready, by decide⟩
  refine ⟨hd.awake_of_ne_idle (by rw [hp]; decide), ⟨ha, ?_, Or.inl ?_⟩, hp, ?_⟩
  · rw [hn, hstartn]
    exact h.hook
  · rw [hn, hstartn]
    exact h.installed h.ready
  · rw [hs]
    exact (b.takeSignal_spec s).2.1

theorem Listening.turnEndpoint (h : Listening e d n c s b) :
    Listening e d n c s (b.turnEndpoint e).1 ∧ (b.turnEndpoint e).2 = .ok () := by
  obtain ⟨fs, hc⟩ := carried_turnEndpoint h.toAttached h.device_eq h.signal_eq
  have ht := hc.ties s
  have hr : ((b.turnEndpoint e).1.nic n).gate.isReady = (b.nic n).gate.isReady := by
    rw [Gate.isReady, hc.phase_eq, Gate.isReady]
  have close : Awake d n c s false (b.turnEndpoint e).1 →
      (((b.turnEndpoint e).1.signal s).isPending = true →
        ((b.turnEndpoint e).1.context c).phase = .scheduled) →
      Listening e d n c s (b.turnEndpoint e).1 :=
    fun ha hq => h.transfer ha (ht.endpoint e) (ht.weight d) hr (ht.hook n) hq
  rcases turnEndpoint_cases h.toAttached h.device_eq h.signal_eq with
    ⟨hno, he⟩ | ⟨-, -, gs, b', he, hcarry, hcs, hss, -⟩ | ⟨hp, hq, -⟩
  · rw [he] at close ⊢
    have hclear : ((b.takeSignal s).1.signal s).isPending = false := (b.takeSignal_spec s).2.1
    refine ⟨close (h.toAwake.takeSignal fun hq => ?_) fun hs => ?_, rfl⟩
    · exact absurd ((h.asked hq).symm.trans hno) (by decide)
    · exact absurd (hclear.symm.trans hs) (by decide)
  · rw [he] at close ⊢
    obtain ⟨ha, hpass⟩ := h.passing hcarry hcs hss
    exact ⟨close (ha.endPass _ _) (hpass.endPass _ _).2, rfl⟩
  · exact absurd (h.asks hp) hq

/-- **A turn brings something if there is something to bring.**  If the backlog is
empty after the turn, nothing was in the ring before. -/
theorem Listening.turn_brings (h : Listening e d n c s b)
    (hstill : ((b.turnEndpoint e).1.endpoint e).backlog = []) : (b.nic n).rx.toList = [] := by
  rcases turnEndpoint_cases h.toAttached h.device_eq h.signal_eq with
    ⟨hno, -⟩ | ⟨-, -, fs, b', he, hc, -, -, -, hshort⟩ | ⟨hp, hq, -⟩
  · exact h.quiet hno
  · have hb : ((b.turnEndpoint e).1.endpoint e).backlog = (b'.endpoint e).backlog := by
      rw [he, (carried_endPass b' fs.length _).backlog, List.append_nil]
    have hfs : fs = [] := by
      have hl := hc.backlog
      rw [← hb, hstill] at hl
      exact (List.append_eq_nil_iff.mp hl.symm).2
    -- An empty pass stayed below its weight, so the ring was seen empty.
    have hlow : fs.length < (b.device d).weight := by
      rw [hfs]
      exact h.weight
    have hdrain : (b.nic n).gate.phase.canDrain = true := by
      have hr := h.ready
      simp only [Gate.isReady, beq_iff_eq] at hr
      rw [hr]
      rfl
    have hring := hc.backlog_append_ring
    rw [hc.backlog, hfs, hshort hlow hdrain, List.append_nil, List.append_nil] at hring
    exact List.append_cancel_left ((List.append_nil _).trans hring).symm
  · exact absurd (h.asks hp) hq

/-! ### Receiving -/

theorem Listening.popBacklog (h : Listening e d n c s b) :
    Listening e d n c s (b.popBacklog e).1 := by
  rcases (popBacklog_eq b e).1 with hb | ⟨rest, hb⟩
  · rw [hb]
    exact h
  · rw [hb]
    have ht := sameTies_setBacklog (s := s) b e fun _ => rest
    exact h.transfer (h.toAwake.transfer ⟨h.nic_eq, h.context_eq, h.request_eq⟩ rfl id
      fun _ => ⟨⟨rfl, rfl, rfl⟩, id⟩) (ht.endpoint e) rfl rfl rfl h.asks

/-- Handing out the oldest frame of the backlog leaves the others waiting. -/
theorem waiting_popBacklog (b : Bench) (e : Handle Endpoint) (n : Handle Nic) :
    (b.popBacklog e).2.toList ++ (b.popBacklog e).1.waiting e n = b.waiting e n := by
  obtain ⟨hb, hl⟩ := popBacklog_eq b e
  have hn : (b.popBacklog e).1.nic n = b.nic n := by
    rcases hb with hb | ⟨rest, hb⟩
    · rw [hb]
    · rw [hb]
      rfl
  rw [waiting, hn, ← List.append_assoc, hl, waiting]

/-- **Asking for a frame.**  It never is a fault.  What is handed out waited first,
and nothing is handed out only if nothing waits. -/
theorem Listening.receiveEndpoint (h : Listening e d n c s b) :
    Listening e d n c s (b.receiveEndpoint e).1 ∧ ∃ o, (b.receiveEndpoint e).2 = .ok o ∧
      o.toList ++ (b.receiveEndpoint e).1.waiting e n = b.waiting e n ∧
      (o = none ↔ (b.endpoint e).backlog = [] ∧ (b.nic n).rx.toList = []) := by
  rw [receiveEndpoint_eq]
  split
  · next hnil =>
    obtain ⟨ht, hok⟩ := h.turnEndpoint
    obtain ⟨fs, hc⟩ := carried_turnEndpoint h.toAttached h.device_eq h.signal_eq
    have hw : (b.turnEndpoint e).1.waiting e n = b.waiting e n := hc.backlog_append_ring
    have hbrings := h.turn_brings
    rw [show b.turnEndpoint e = ((b.turnEndpoint e).1, .ok ()) from Prod.ext rfl hok]
    refine ⟨ht.popBacklog, _, rfl, (waiting_popBacklog _ e n).trans hw, ?_⟩
    rw [popBacklog_eq_none_iff]
    refine ⟨fun hstill => ⟨hnil, hbrings hstill⟩, fun ⟨_, hring⟩ => ?_⟩
    rw [waiting, waiting, hnil, hring] at hw
    exact (List.append_eq_nil_iff.mp hw).1
  · next hne =>
    refine ⟨h.popBacklog, _, rfl, waiting_popBacklog b e n, ?_⟩
    rw [popBacklog_eq_none_iff]
    exact ⟨fun hnil => absurd hnil hne, fun hnil => hnil.1⟩

/-! ## Nothing is lost -/

/-- What was held at first and what was accepted since is what was returned, followed
by what waits. -/
def Delivered (held : List Frame) (e : Handle Endpoint) (n : Handle Nic) (b : Bench)
    (l : Receipts) : Prop :=
  l.returned ++ b.waiting e n = held ++ l.accepted

namespace Delivered

variable {held : List Frame}

theorem of_waiting_eq (h : Delivered held e n b l) (hw : b'.waiting e n = b.waiting e n) :
    Delivered held e n b' l := by
  rw [Delivered, hw]
  exact h

/-- A frame waits behind the others if the card says that it accepted it. -/
theorem deliver (h : Delivered held e n b l) (f : Frame) :
    Delivered held e n (b.deliver n f).1 (l.enter (b.deliver n f).2 f) := by
  have he := (atCard_deliver b n f).endpoint_eq e
  rcases b.deliver_outcome n f with ⟨hok, -, rx, armed, hrx, hn⟩ | ⟨⟨r, hr⟩, hn⟩
  · rw [hok, Delivered, waiting, he, hn]
    calc l.returned ++ ((b.endpoint e).backlog ++ rx.toList)
        = l.returned ++ b.waiting e n ++ [f] := by simp [hrx, waiting]
      _ = held ++ (l.accepted ++ [f]) := by rw [h, List.append_assoc]
  · rw [hr]
    exact h.of_waiting_eq (by rw [waiting, he, hn, waiting])

theorem rearm (h : Delivered held e n b l) : Delivered held e n (b.rearm n) l := by
  have hi := interrupted_rearm b n
  refine h.of_waiting_eq ?_
  rw [waiting, hi.atCard.endpoint_eq]
  exact congrArg ((b.endpoint e).backlog ++ ·) (congrArg Ring.toList (hi.ring_eq .receive))

/-- Sending touches nothing that waits. -/
theorem sendEndpoint (h : Delivered held e n b l) (hl : Listening e d n c s b) (f : Frame) :
    Delivered held e n (b.sendEndpoint e f).1 l := by
  unfold Bench.sendEndpoint
  rw [hl.device_eq]
  have hx : ((b.send d f).1.nic n).rx = (b.nic n).rx := (send_spec hl.toAttached f).2.rx
  have he : (b.send d f).1.endpoint e = b.endpoint e := by
    rw [(send_beside hl.nic_eq f).2.2]
  exact h.of_waiting_eq (by rw [waiting, he, hx, waiting])

theorem take (h : Delivered held e n b l) : Delivered held e n (b.take n .transmit).1 l := by
  refine h.of_waiting_eq ?_
  rw [waiting, (onlyCard_take b n .transmit).atCard.endpoint_eq]
  rcases b.take_cases n .transmit with ⟨-, ht⟩ | ⟨-, f, r, -, -, hn⟩
  · rw [ht]
    rfl
  · rw [hn]
    rfl

theorem turnEndpoint (h : Delivered held e n b l) (hl : Listening e d n c s b) :
    Delivered held e n (b.turnEndpoint e).1 l := by
  obtain ⟨fs, hc⟩ := carried_turnEndpoint hl.toAttached hl.device_eq hl.signal_eq
  exact h.of_waiting_eq hc.backlog_append_ring

/-- What is handed out has waited longest. -/
theorem receiveEndpoint (h : Delivered held e n b l) (hl : Listening e d n c s b) :
    Delivered held e n (b.receiveEndpoint e).1 (l.handOut (b.receiveEndpoint e).2) := by
  obtain ⟨-, o, ho, hw, -⟩ := hl.receiveEndpoint
  rw [ho]
  calc l.returned ++ o.toList ++ (b.receiveEndpoint e).1.waiting e n
      = l.returned ++ b.waiting e n := by rw [List.append_assoc, hw]
    _ = held ++ l.accepted := h

theorem elsewhere (h : Delivered held e n b l) (he : Elsewhere e n b b') :
    Delivered held e n b' l :=
  h.of_waiting_eq (by rw [waiting, he.nic, he.endpoint, waiting])

end Delivered

/-- Whatever happens while the endpoint is open, it goes on to listen and nothing is
lost. -/
theorem OpenRun.delivered {held : List Frame} (hr : OpenRun e n b l b' l')
    (h : Listening e d n c s b ∧ Delivered held e n b l) :
    Listening e d n c s b' ∧ Delivered held e n b' l' := by
  have take : ∀ b l, Listening e d n c s b ∧ Delivered held e n b l →
      Listening e d n c s (b.take n .transmit).1 ∧ Delivered held e n (b.take n .transmit).1 l :=
    fun b l hb => ⟨hb.1.take .transmit, hb.2.take⟩
  -- The calls of a sink are runs themselves, so the induction covers them too.
  induction hr with
  | done b l => exact h
  | trans _ _ ih₁ ih₂ => exact ih₂ (ih₁ h)
  | deliver b l f => exact ⟨h.1.deliver f, h.2.deliver f⟩
  | rearm b l => exact ⟨h.1.rearm, h.2.rearm⟩
  | send b l f => exact ⟨h.1.sendEndpoint f, h.2.sendEndpoint h.1 f⟩
  | turn b l => exact ⟨h.1.turnEndpoint.1, h.2.turnEndpoint h.1⟩
  | receive b l => exact ⟨h.1.receiveEndpoint.1, h.2.receiveEndpoint h.1⟩
  | @drain γ b l budget sink g _ ih =>
    let P : Bench × γ × Receipts → Prop := fun y =>
      Listening e d n c s y.1 ∧ Delivered held e n y.1 y.2.2
    exact pump_of_hands (P := P) (Q := fun _ => P) (fun b g hb _ => take b g.2 hb)
      (fun b g _ hb _ => take b g.2 hb) budget ih h
  | @inside γ b l budget sink g _ f y hy ih =>
    let P : Bench × γ × Receipts → Prop := fun y =>
      Listening e d n c s y.1 ∧ Delivered held e n y.1 y.2.2
    exact hy.invariant (P := P) (Q := fun _ => P) (fun b g _ hb _ => take b g.2 hb) ih h
  | elsewhere b b' l he => exact ⟨h.1.elsewhere he, h.2.elsewhere he⟩

/-- An endpoint that is opened on a card that is down listens.  Its ring is empty, and
its backlog is as it was. -/
theorem InStep.listening (h : InStep e d n c s b) (hr : (b.nic n).gate.isReady = false)
    (hw : 1 ≤ (b.device d).weight) : Listening e d n c s (b.openEndpoint e) ∧
      (b.openEndpoint e).waiting e n = (b.endpoint e).backlog := by
  obtain ⟨ha, hx, hp, hs⟩ := openDevice_spec h.toAttached
  have hq : Quiet s (b.device d).context b (b.openDevice d) :=
    quiet_openDevice (by rw [h.context_eq]; exact h.has_context)
  have hi := h.openEndpoint
  unfold Bench.openEndpoint at hi ⊢
  rw [h.device_eq] at hi ⊢
  rw [Nic.opened_of_not_ready hr] at hx
  have hnil : ((b.openDevice d).nic n).rx.toList = [] := by
    rw [hx]
    exact (b.nic n).toList_ring_emptied .receive
  have hdriven : Driven d n c s false (b.openDevice d) := by
    refine .of_phase ha rfl ?_ hi.pending_iff.mpr fun _ => ⟨by rw [hx], ?_⟩
    · exact ⟨fun hd => absurd hd hi.pass, nofun⟩
    · rw [hp]
      exact PollPhase.enabled_ne_disabled _
  refine ⟨⟨⟨hdriven, fun _ _ => ⟨by rw [hx], hnil⟩⟩, hi.device_eq, hi.signal_eq, by rw [hx]; rfl,
    hi.hook n, hi.pending_iff.mp, ?_⟩, ?_⟩
  · rw [hq.ties.weight]
    exact hw
  · rw [waiting, hnil, List.append_nil, endpoint, hq.endpoints, ← endpoint]

/-- **End-to-end delivery.**  Put an endpoint on any bench that is closed, let
anything happen there, and open the endpoint while its card is down.  From then on,
the frames that were returned, followed by the backlog and the ring, are what the
backlog held at the opening, followed by what was accepted since; asking for a frame
yields none only if backlog and ring are both empty; and the backlog held nothing at
the opening if the endpoint was new or had been closed. -/
theorem returned_append_waiting {b₀ b₁ b₂ : Bench} {z : Settings} (hb : b₀.Closed)
    (he : b₀.addEndpoint z n = (e, b₁)) (hr : EndpointRun e b₁ b₂)
    (hdown : (b₂.nic n).gate.isReady = false) (hw : 1 ≤ (b₂.device (b₂.endpoint e).device).weight)
    (hs : OpenRun e n (b₂.openEndpoint e) {} b l) :
    l.returned ++ ((b.endpoint e).backlog ++ (b.nic n).rx.toList) =
        (b₂.endpoint e).backlog ++ l.accepted ∧
      (∃ o, (b.receiveEndpoint e).2 = .ok o ∧
        (o = none ↔ (b.endpoint e).backlog = [] ∧ (b.nic n).rx.toList = [])) ∧
      ((b₂.context (b₂.device (b₂.endpoint e).device).context).phase = .disabled →
        (b₂.endpoint e).backlog = []) := by
  obtain ⟨d, c, s, hj⟩ := joins_of_addEndpoint he
  have h := hr.inStep (hj.inStep hb)
  rw [h.device_eq] at hw ⊢
  rw [h.context_eq]
  obtain ⟨hl, hwait⟩ := h.listening hdown hw
  have hstart : Delivered (b₂.endpoint e).backlog e n (b₂.openEndpoint e) {} := by
    rw [Delivered, hwait]
    exact (List.append_nil _).symm
  obtain ⟨hl', hd⟩ := hs.delivered ⟨hl, hstart⟩
  obtain ⟨-, o, ho, -, hnone⟩ := hl'.receiveEndpoint
  exact ⟨hd, ⟨o, ho, hnone⟩, h.held⟩

/-- A bench with one new card, whose rings are of the least size. -/
def oneCard : Bench :=
  ((default : Bench).addNic default).2

/-- An endpoint on that card was opened, and a turn brought a frame into its backlog;
then others tore the card down. -/
def heldOver : Bench :=
  let b := (oneCard.addEndpoint .standard ⟨0⟩).2.openEndpoint ⟨0⟩
  (((b.deliver ⟨0⟩ ⟨[1, 2, 3]⟩).1.turnEndpoint ⟨0⟩).1.tearDown ⟨0⟩).1

theorem closed_oneCard : Closed oneCard :=
  closed_default.addNic rfl rfl rfl

theorem endpointRun_heldOver :
    EndpointRun ⟨0⟩ (oneCard.addEndpoint .standard ⟨0⟩).2 heldOver :=
  (((EndpointRun.endpoint _ ⟨0⟩ (by decide +kernel) .up).trans
    (.card _ ⟨0⟩ (.deliver ⟨[1, 2, 3]⟩))).trans
    (.endpoint _ ⟨0⟩ (by decide +kernel) .turn)).trans (.card _ ⟨0⟩ .tearDown)

/-- The endpoint is opened again.  A frame arrives, and while the wire collects one
that is sent, the endpoint is asked for a frame. -/
theorem returned_append_waiting_heldOver :
    Closed oneCard ∧
      oneCard.addEndpoint .standard ⟨0⟩ = (⟨0⟩, (oneCard.addEndpoint .standard ⟨0⟩).2) ∧
      EndpointRun ⟨0⟩ (oneCard.addEndpoint .standard ⟨0⟩).2 heldOver ∧
      (heldOver.nic ⟨0⟩).gate.isReady = false ∧
      1 ≤ (heldOver.device (heldOver.endpoint ⟨0⟩).device).weight ∧
      ∃ b l, OpenRun ⟨0⟩ ⟨0⟩ (heldOver.openEndpoint ⟨0⟩) {} b l ∧
        l = ⟨[⟨[4, 5]⟩], [⟨[1, 2, 3]⟩]⟩ ∧
        l.returned ++ ((b.endpoint ⟨0⟩).backlog ++ (b.nic ⟨0⟩).rx.toList) =
          (heldOver.endpoint ⟨0⟩).backlog ++ l.accepted := by
  have hdown : (heldOver.nic ⟨0⟩).gate.isReady = false := by decide +kernel
  have hw : 1 ≤ (heldOver.device (heldOver.endpoint ⟨0⟩).device).weight := by decide +kernel
  let ask : Sink (Unit × Receipts) := fun _ y =>
    ((y.1.receiveEndpoint ⟨0⟩).1, ((), y.2.2.handOut (y.1.receiveEndpoint ⟨0⟩).2))
  have run : OpenRun ⟨0⟩ ⟨0⟩ (heldOver.openEndpoint ⟨0⟩) {} _ _ :=
    ((OpenRun.deliver _ _ ⟨[4, 5]⟩).trans (.send _ _ ⟨[6]⟩)).trans
      (.drain _ _ 1 ask () fun _ y _ => .receive y.1 y.2.2)
  exact ⟨closed_oneCard, rfl, endpointRun_heldOver, hdown, hw, _, _, run, by decide +kernel,
    (returned_append_waiting closed_oneCard rfl endpointRun_heldOver hdown hw run).1⟩

/-- What is returned need not have been accepted since the opening: a frame that the
backlog held before is handed out, and nothing has arrived. -/
theorem heldOver_returns_earlier :
    Closed oneCard ∧
      oneCard.addEndpoint .standard ⟨0⟩ = (⟨0⟩, (oneCard.addEndpoint .standard ⟨0⟩).2) ∧
      EndpointRun ⟨0⟩ (oneCard.addEndpoint .standard ⟨0⟩).2 heldOver ∧
      (heldOver.nic ⟨0⟩).gate.isReady = false ∧
      1 ≤ (heldOver.device (heldOver.endpoint ⟨0⟩).device).weight ∧
      ∃ b l, OpenRun ⟨0⟩ ⟨0⟩ (heldOver.openEndpoint ⟨0⟩) {} b l ∧ l = ⟨[], [⟨[1, 2, 3]⟩]⟩ ∧
        l.returned ++ ((b.endpoint ⟨0⟩).backlog ++ (b.nic ⟨0⟩).rx.toList) ≠ l.accepted :=
  ⟨closed_oneCard, rfl, endpointRun_heldOver, by decide +kernel, by decide +kernel, _, _,
    .receive _ _, by decide +kernel, by decide +kernel⟩

end Bench
end SoftNic
