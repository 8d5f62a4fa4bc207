import SoftNic.Proofs.Delivery
import SoftNic.Proofs.Drainable

/-! # Tokens and the link

A stack may send a frame for each transmit token that it is given, and it is given them in
two places.  Asking to transmit yields one only while the link is up.  A frame that was
received comes with another, for the answer, and nobody asks for the link there: what matters
is that there is a frame (`receive?_token_iff`), in the backlog or in the ring behind a pass
that was asked for.

Frames outlive the link.  A card that is shut down still gives away what it has queued, and
no card knows of the backlog.  But nothing comes in while the link is down, whatever is done
with the card and the endpoint (`LinkStep.sheds`).  So what the stack is given then was
waiting when the link went down (`LinkRun.sublist`), and where nothing was, it is given
nothing.

**`endpoint_tokens`** says of the end of every run which tokens are to be had.  A link that
goes down with its endpoint leaves nothing behind; one whose card is shut down by others may
(`token_while_down`).
-/
namespace SoftNic
namespace Bench

variable {γ : Type} {e : Handle Endpoint} {d : Handle Device} {n : Handle Nic}
  {i : Direction} {b b' b'' : Bench}

/-! ## Asking for a frame -/

/-- The card of an endpoint. -/
def cardOf (e : Handle Endpoint) (b : Bench) : Handle Nic :=
  (b.device (b.endpoint e).device).nic

/-- A frame is to be had: one waits in the backlog; or one can be taken from the card, and a
pass was asked for that may hand over frames. -/
def Receivable (e : Handle Endpoint) (b : Bench) : Prop :=
  (b.endpoint e).backlog ≠ [] ∨
  (b.signal (b.endpoint e).request).isPending = true ∧
    (b.context (b.device (b.endpoint e).device).context).phase = .scheduled ∧
    (b.nic (cardOf e b)).gate.phase.canDrain = true ∧ (b.nic (cardOf e b)).rx.toList ≠ [] ∧
    0 < (b.device (b.endpoint e).device).weight

/-- What the stack is told of a frame that was asked for. -/
theorem receive?_eq (e : Handle Endpoint) (b : Bench) :
    (endpointLink e).receive? b =
      ((b.receiveEndpoint e).1, (b.receiveEndpoint e).2.map fun o => o.map (·, .token)) := by
  unfold LinkDriver.receive? endpointLink
  dsimp only
  cases b.receiveEndpoint e with
  | mk b' answer =>
    cases answer with
    | error f => rfl
    | ok o => cases o <;> rfl

/-- **A token comes with every frame**, and only with a frame. -/
theorem exists_token_iff : (∃ f t, ((endpointLink e).receive? b).2 = .ok (some (f, t))) ↔
    ∃ f, (b.receiveEndpoint e).2 = .ok (some f) := by
  rw [receive?_eq]
  dsimp only
  cases (b.receiveEndpoint e).2 with
  | error x => exact ⟨nofun, nofun⟩
  | ok o =>
    cases o with
    | none => exact ⟨nofun, nofun⟩
    | some f => exact ⟨fun _ => ⟨f, rfl⟩, fun _ => ⟨f, .token, rfl⟩⟩

/-- Nothing is taken from a card that gives nothing. -/
theorem pump_of_closed {sink : Sink γ} (h : (b.nic n).gate.phase.canDrain = false) (budget : Nat)
    (g : γ) : pump (·.take n i) sink budget (b, g) = ((b, g), 0) := by
  cases budget with
  | zero => rfl
  | succ budget =>
    have ht : b.take n i = (b, none) := by
      rw [take, if_neg (by rw [h]; decide)]
    rw [pump, ht]

section Turns

variable (hnil : (b.endpoint e).backlog = [])

include hnil

/-- A turn brings nothing from a card that gives nothing. -/
theorem turnEndpoint_of_closed (hcl : (b.nic (cardOf e b)).gate.phase.canDrain = false) :
    ((b.turnEndpoint e).1.endpoint e).backlog = [] := by
  by_cases hp : (b.signal (b.endpoint e).request).isPending = true
  · rw [turnEndpoint_of_pending rfl rfl hp]
    have ha : Attached (b.endpoint e).device (cardOf e b)
      (b.device (b.endpoint e).device).context _ b := ⟨rfl, rfl, rfl⟩
    rcases pollDevice_cases (ha.takeSignal (b.endpoint e).request) (enqueueBacklog e) () with
      ⟨-, y, k, hy, hr⟩ | ⟨-, x, hr⟩ | ⟨-, x, hr⟩
    · have hcl' : ((b.passStart (b.endpoint e).device (b.device (b.endpoint e).device).context
        (b.endpoint e).request).nic _).gate.phase.canDrain = false := hcl
      obtain ⟨rfl, rfl⟩ := Prod.mk.inj ((pump_of_closed hcl' _ _).symm.trans hy)
      rw [hr]
      exact (carried_endPass (e := e) _ _ _).backlog.trans ((List.append_nil _).trans hnil)
    · rw [hr]
      exact hnil
    · rw [hr]
      exact hnil
  · rw [turnEndpoint_of_clear rfl (by simpa using hp)]
    exact hnil

/-- A turn finds a frame if the pass that was asked for can hand one over. -/
theorem backlog_turnEndpoint_iff :
    (b.turnEndpoint e).2 = .ok () ∧ ((b.turnEndpoint e).1.endpoint e).backlog ≠ [] ↔
      Receivable e b := by
  have hwait : Receivable e b ↔ _ := or_iff_right fun h => h hnil
  rw [hwait]
  rcases turnEndpoint_cases (b := b) (e := e) ⟨rfl, rfl, rfl⟩ rfl rfl with
    ⟨hno, ht⟩ | ⟨hp, hq, fs, b', ht, hc, -, -, hle, hshort⟩ | ⟨-, hq, x, answer, ht, -⟩
  · rw [ht, hno]
    exact ⟨fun h => absurd hnil h.2, fun h => nomatch h.1⟩
  · have hback : ((b.turnEndpoint e).1.endpoint e).backlog = fs := by
      rw [ht, (carried_endPass (e := e) b' _ _).backlog, hc.backlog, List.append_nil,
        show ((b.passStart _ _ _).endpoint e).backlog = [] from hnil, List.nil_append]
    obtain ⟨armed, rx, hn, hrx⟩ := hc.card
    replace hrx : (b.nic (cardOf e b)).rx.toList = fs ++ rx.toList := hrx
    rw [hback, hrx]
    constructor
    · rintro ⟨-, hfs⟩
      refine ⟨hp, hq, ?_, by simp [hfs], Nat.lt_of_lt_of_le (List.length_pos_iff.mpr hfs) hle⟩
      cases hd : (b.nic (cardOf e b)).gate.phase.canDrain with
      | true => rfl
      | false => exact absurd (hback.symm.trans (turnEndpoint_of_closed hnil hd)) hfs
    · rintro ⟨-, -, hdrain, hsome, hw⟩
      refine ⟨by rw [ht], ?_⟩
      rintro rfl
      have hempty := hshort hw hdrain
      rw [hn] at hempty
      exact hsome hempty
  · rw [ht]
    exact ⟨fun h => absurd hnil h.2, fun h => absurd h.2.1 hq⟩

end Turns

/-- A token is to be had exactly if a frame is. -/
theorem receive?_token_iff :
    (∃ f t, ((endpointLink e).receive? b).2 = .ok (some (f, t))) ↔ Receivable e b := by
  have pop : ∀ b' : Bench,
      (∃ f, (Except.ok (b'.popBacklog e).2 : Except Fault (Option Frame)) = .ok (some f)) ↔
        (b'.endpoint e).backlog ≠ [] := fun b' => by
    refine Iff.trans ?_ (not_congr popBacklog_eq_none_iff)
    cases (b'.popBacklog e).2 with
    | none => exact ⟨nofun, fun h => absurd rfl h⟩
    | some f => exact ⟨fun _ => nofun, fun _ => ⟨f, rfl⟩⟩
  rw [exists_token_iff, receiveEndpoint_eq]
  by_cases hnil : (b.endpoint e).backlog = []
  · rw [if_pos hnil, ← backlog_turnEndpoint_iff hnil]
    cases ht : b.turnEndpoint e with
    | mk b' answer =>
      cases answer with
      | error x => exact ⟨nofun, fun h => nomatch h.1⟩
      | ok u => exact (pop b').trans (and_iff_right rfl).symm
  · rw [if_neg hnil, pop b]
    exact ⟨fun h => Or.inl h, fun _ => hnil⟩

/-! ## What happens to a link -/

/-- The frame that the stack gets if it asks for one. -/
def fetched (e : Handle Endpoint) (b : Bench) : Option Frame :=
  ((endpointLink e).receive? b).2.toOption.join.map Prod.fst

theorem fetched_eq (e : Handle Endpoint) (b : Bench) :
    fetched e b = (b.receiveEndpoint e).2.toOption.join := by
  rw [fetched, receive?_eq]
  dsimp only
  cases (b.receiveEndpoint e).2 with
  | error x => rfl
  | ok o => cases o <;> rfl

/-- **What may happen to the link of an endpoint**, and the frame that the stack gets with
a token. -/
inductive LinkStep (e : Handle Endpoint) : Bench → Option Frame → Bench → Prop
  | asked (b : Bench) : LinkStep e b (fetched e b) ((endpointLink e).receive? b).1
  /-- A token is used up. -/
  | answered (b : Bench) (t : TransmitToken) (f : Frame) :
    LinkStep e b none ((endpointLink e).sendBy t b f).1
  | driven (b : Bench) (op : EndpointOp) : LinkStep e b none (endpointStep e b op)
  /-- Its device is closed, and the endpoint is not told. -/
  | closedBelow (b : Bench) : LinkStep e b none (b.closeDevice (b.endpoint e).device).1
  /-- A call is made, on this or on any other card. -/
  | call (b : Bench) (o : BenchOp) : LinkStep e b none (benchStep b o)
  /-- Whatever leaves the endpoint and its card as they are. -/
  | elsewhere (b b' : Bench) (he : b'.endpoint e = b.endpoint e)
    (hd : (b'.device (b.endpoint e).device).nic = cardOf e b)
    (hn : b'.nic (cardOf e b) = b.nic (cardOf e b)) : LinkStep e b none b'

/-- What a step does with the frames that were received.  Only a step that leaves the link
as it is hands one out; and none comes in while the link is down. -/
structure Sheds (e : Handle Endpoint) (d : Handle Device) (n : Handle Nic) (b : Bench)
    (o : Option Frame) (b' : Bench) : Prop where
  endpoint : (b'.endpoint e).device = d
  device : (b'.device d).nic = n
  silent : (b'.nic n).gate.isReady = (b.nic n).gate.isReady ∨ o = none
  frames : (b.nic n).gate.isReady = false → (b'.nic n).gate.isReady = false →
    (o.toList ++ b'.waiting e n).Sublist (b.waiting e n)

/-- A step that leaves the link as it is, and all frames but the one that it hands out. -/
structure Steady (e : Handle Endpoint) (d : Handle Device) (n : Handle Nic) (b : Bench)
    (o : Option Frame) (b' : Bench) : Prop where
  endpoint : (b'.endpoint e).device = d
  device : (b'.device d).nic = n
  ready : (b'.nic n).gate.isReady = (b.nic n).gate.isReady
  frames : o.toList ++ b'.waiting e n = b.waiting e n

namespace Steady

variable {o : Option Frame}

theorem trans (h : Steady e d n b none b') (k : Steady e d n b' o b'') : Steady e d n b o b'' where
  endpoint := k.endpoint
  device := k.device
  ready := k.ready.trans h.ready
  frames := k.frames.trans h.frames

theorem sheds (h : Steady e d n b o b') : Sheds e d n b o b' where
  endpoint := h.endpoint
  device := h.device
  silent := Or.inl h.ready
  frames _ _ := h.frames ▸ List.Sublist.refl _

end Steady

section Steps

variable {o : Option Frame} (he : (b.endpoint e).device = d) (hn : (b.device d).nic = n)

include he hn

theorem steady_of_sameTies (ht : ∀ t, SameTies t b b')
    (hr : (b'.nic n).gate.isReady = (b.nic n).gate.isReady)
    (hw : o.toList ++ b'.waiting e n = b.waiting e n) : Steady e d n b o b' where
  endpoint := ((ht ⟨0⟩).endpoint e).1.trans he
  device := ((ht ⟨0⟩).device d).1.trans hn
  ready := hr
  frames := hw

theorem steady_turnEndpoint : Steady e d n b none (b.turnEndpoint e).1 := by
  subst hn
  obtain ⟨fs, hc⟩ := carried_turnEndpoint (d := d) ⟨rfl, rfl, rfl⟩ he rfl
  exact steady_of_sameTies he rfl hc.ties (by rw [Gate.isReady, hc.phase_eq, ← Gate.isReady])
    hc.backlog_append_ring

theorem steady_popBacklog : Steady e d n b (b.popBacklog e).2 (b.popBacklog e).1 := by
  have hw := waiting_popBacklog b e n
  rcases (popBacklog_eq b e).1 with hb | ⟨rest, hb⟩
  · exact steady_of_sameTies he hn (fun _ => by rw [hb]; exact .refl b) (by rw [hb]) hw
  · exact steady_of_sameTies he hn
      (fun _ => by rw [hb]; exact sameTies_setBacklog b e fun _ => rest) (by rw [hb]; rfl) hw

/-- The stack gets what waited first. -/
theorem steady_receive? : Steady e d n b (fetched e b) ((endpointLink e).receive? b).1 := by
  rw [fetched_eq, receive?_eq, receiveEndpoint_eq]
  by_cases hnil : (b.endpoint e).backlog = []
  · have ht := steady_turnEndpoint he hn
    rw [if_pos hnil]
    cases h : b.turnEndpoint e with
    | mk b' answer =>
      rw [h] at ht
      cases answer with
      | error x => exact ht
      | ok u => exact ht.trans (steady_popBacklog ht.endpoint ht.device)
  · rw [if_neg hnil]
    exact steady_popBacklog he hn

theorem steady_sendEndpoint (f : Frame) : Steady e d n b none (b.sendEndpoint e f).1 := by
  rw [sendEndpoint, he]
  obtain ⟨-, -, hend⟩ := send_beside (b := b) hn f
  have hrx : ((b.send d f).1.nic n).rx = (b.nic n).rx ∧
      ((b.send d f).1.nic n).gate = (b.nic n).gate := by
    rcases send_outcome hn f with ⟨-, -, hnics, -⟩ | ⟨-, -, -, ⟨tx, -, hx⟩, -⟩ | ⟨-, -, hx, -⟩
    · rw [nic, hnics]
      exact ⟨rfl, rfl⟩
    · rw [hx]
      exact ⟨rfl, rfl⟩
    · rw [hx]
      exact ⟨rfl, rfl⟩
  refine steady_of_sameTies he hn (fun _ => sameTies_send b d f) (by rw [hrx.2]) ?_
  rw [waiting, hend, hrx.1]
  rfl

/-- A token that is used up is a frame that is sent. -/
theorem steady_sendBy (t : TransmitToken) (f : Frame) :
    Steady e d n b none ((endpointLink e).sendBy t b f).1 := by
  have hs := steady_sendEndpoint he hn f
  unfold LinkDriver.sendBy LinkDriver.consume endpointLink
  dsimp only
  cases h : b.sendEndpoint e f with
  | mk b' answer =>
    rw [h] at hs
    cases answer with
    | ok u => exact hs
    | error r => exact ⟨hs.endpoint, hs.device, hs.ready, hs.frames⟩

/-! ### Openings, closings and calls -/

theorem sheds_openEndpoint : Sheds e d n b none (b.openEndpoint e) := by
  rw [openEndpoint, he]
  have ha := atCard_openDevice hn
  have hup : ((b.openDevice d).nic n).gate.isReady = true := by
    rw [(openDevice_spec (s := (b.context (b.device d).context).request) ⟨hn, rfl, rfl⟩).2.1]
    exact Nic.isReady_opened _ _
  exact ⟨by rw [ha.endpoint_eq, he], by rw [ha.device_eq, hn], Or.inr rfl,
    fun _ h => nomatch hup.symm.trans h⟩

omit he in
/-- A device that is closed takes the link down.  What was in its card stays there if it
waits for its own pass, and is gone if it does not. -/
theorem closeDevice_link : (b.closeDevice d).1.endpoints = b.endpoints ∧
    ((b.closeDevice d).1.device d).nic = n ∧
    ((b.closeDevice d).1.nic n).gate.isReady = false ∧
    (((b.closeDevice d).1.nic n).rx.toList = [] ∨
      (b.closeDevice d).2 ≠ .ok () ∧ ((b.closeDevice d).1.nic n).rx = (b.nic n).rx) := by
  have ha : Attached d n (b.device d).context _ b := ⟨hn, rfl, rfl⟩
  by_cases hp : (b.context (b.device d).context).phase = .draining
  · have ho : OnlyCard n b (((b.recordDevice d .closed).shutDown n).removeHandler n) :=
      onlyCard_closing b n _
    have hx : ((((b.recordDevice d .closed).shutDown n).removeHandler n).nic n) =
        { b.nic n with gate := (b.nic n).gate.shut, handler := none } := by
      rw [nic_removeHandler, nic_shutDown]
      rfl
    have hc : (b.closeDevice d).1 = ((b.recordDevice d .closed).shutDown n).removeHandler n := by
      unfold closeDevice
      dsimp only
      rw [hn, disableContext, ho.context_eq, hp]
    rw [closeDevice_of_draining ha hp, hc, hx]
    exact ⟨ho.endpoints, (congrArg Device.nic (ho.device_eq d)).trans hn, Gate.isReady_shut _,
      Or.inr ⟨by simp, rfl⟩⟩
  · obtain ⟨-, ha', hx, -, -⟩ := closeDevice_spec ha hp
    obtain ⟨log, he⟩ := closeDevice_afterClosing hp
    refine ⟨congrArg (·.1.endpoints) he, ha'.nic_eq, by rw [hx]; rfl, Or.inl ?_⟩
    rw [hx]
    exact (b.nic n).toList_ring_emptied .receive

/-- So a frame that is there afterwards was there before. -/
theorem sheds_closeDevice : Sheds e d n b none (b.closeDevice d).1 := by
  obtain ⟨hend, hdev, -, hrx⟩ := closeDevice_link (b := b) hn
  have hb : (b.closeDevice d).1.endpoint e = b.endpoint e := by rw [endpoint, hend, ← endpoint]
  refine ⟨by rw [hb, he], hdev, Or.inr rfl, fun _ _ => ?_⟩
  rw [Option.toList_none, List.nil_append, waiting, waiting, hb]
  refine (List.Sublist.refl _).append ?_
  rcases hrx with hnil | ⟨-, hrx⟩
  · rw [hnil]
    exact List.nil_sublist _
  · exact hrx.symm ▸ List.Sublist.refl _

/-- An endpoint that is closed has nothing left. -/
theorem waiting_closeEndpoint (hok : (b.closeEndpoint e).2 = .ok ()) :
    (b.closeEndpoint e).1.waiting e n = [] := by
  obtain ⟨-, -, -, hrx⟩ := closeDevice_link (b := b) hn
  revert hok
  rw [closeEndpoint, he]
  cases h : b.closeDevice d with
  | mk b' answer =>
    rw [h] at hrx
    cases answer with
    | error x => exact nofun
    | ok u =>
      intro _
      have hnil := hrx.resolve_right fun hne => hne.1 rfl
      have hback : (((b'.modifyEndpoint e fun x => { x with backlog := [] }).endpoint e).backlog) =
          [] := congrArg Endpoint.backlog (Store.get_modify_self _ e _)
      exact List.append_eq_nil_iff.mpr ⟨hback, hnil⟩

theorem sheds_closeEndpoint : Sheds e d n b none (b.closeEndpoint e).1 := by
  have hs := sheds_closeDevice he hn
  have hnil := waiting_closeEndpoint he hn
  revert hnil
  rw [closeEndpoint, he]
  cases h : b.closeDevice d with
  | mk b' answer =>
    rw [h] at hs
    cases answer with
    | error x => exact fun _ => hs
    | ok u =>
      intro hnil
      refine ⟨?_, hs.device, Or.inr rfl, fun _ _ => ?_⟩
      · exact (congrArg Endpoint.device (Store.get_modify_self _ e _)).trans hs.endpoint
      · rw [Option.toList_none, List.nil_append, hnil rfl]
        exact List.nil_sublist _

omit he hn in
/-- A call changes no card but the one that it is made on, and no device or endpoint. -/
theorem atCard_benchStep (b : Bench) (o : BenchOp) : ∃ m, AtCard m b (benchStep b o) := by
  cases o with
  | card m op => exact ⟨m, atCard_cardStep m b op⟩
  | installHandler m as => exact ⟨m, (onlyCard_installHandler b m as).atCard⟩
  | setHook m s => exact ⟨m, ((OnlyCard.refl m b).modifyNic _).atCard⟩
  | clearHook m => exact ⟨m, ((OnlyCard.refl m b).modifyNic _).atCard⟩
  | enable c => exact ⟨⟨0⟩, (interrupted_enableContext ⟨0⟩ b c).1.atCard⟩
  | disable c =>
    refine ⟨⟨0⟩, ?_⟩
    show AtCard ⟨0⟩ b (b.disableContext c).1
    unfold disableContext
    split <;> exact ⟨fun _ _ => rfl, rfl, rfl, rfl⟩
  | schedule c => exact ⟨⟨0⟩, (interrupted_schedule ⟨0⟩ b c).atCard⟩

theorem sheds_benchStep (o : BenchOp) : Sheds e d n b none (benchStep b o) := by
  obtain ⟨m, ha⟩ := atCard_benchStep b o
  refine ⟨by rw [ha.endpoint_eq, he], by rw [ha.device_eq, hn], Or.inr rfl, fun hdown _ => ?_⟩
  rw [Option.toList_none, List.nil_append, waiting, waiting, ha.endpoint_eq]
  exact (List.Sublist.refl _).append (suffix_of_not_ready hdown o .receive).sublist

theorem sheds_endpointStep (op : EndpointOp) : Sheds e d n b none (endpointStep e b op) := by
  cases op with
  | up => exact sheds_openEndpoint he hn
  | down => exact sheds_closeEndpoint he hn
  | send f => exact (steady_sendEndpoint he hn f).sheds
  | turn => exact (steady_turnEndpoint he hn).sheds
  | receive =>
    have h := (steady_receive? he hn).sheds
    rw [receive?_eq] at h
    exact ⟨h.endpoint, h.device, Or.inr rfl, fun hb hb' =>
      (List.sublist_append_right _ _).trans (h.frames hb hb')⟩

/-- **What a step does to a link.** -/
theorem LinkStep.sheds (h : LinkStep e b o b') : Sheds e d n b o b' := by
  cases h with
  | asked => exact (steady_receive? he hn).sheds
  | answered t f => exact (steady_sendBy he hn t f).sheds
  | driven op => exact sheds_endpointStep he hn op
  | closedBelow =>
    rw [he]
    exact sheds_closeDevice he hn
  | call o => exact sheds_benchStep he hn o
  | elsewhere b'' hend hdev hcard =>
    subst he hn
    exact Steady.sheds ⟨by rw [hend], hdev, congrArg (·.gate.isReady) hcard, by
      rw [waiting, hend, show b'.nic (b.device (b.endpoint e).device).nic = _ from hcard]
      rfl⟩

end Steps

/-! ## Runs -/

/-- Whether the link of an endpoint is up. -/
def linkUp (e : Handle Endpoint) (b : Bench) : Bool :=
  (endpointLink e).isUp b

/-- The frames that wait behind a link that is down. -/
def stranded (e : Handle Endpoint) (b : Bench) : List Frame :=
  if linkUp e b then [] else b.waiting e (cardOf e b)

theorem stranded_of_up (h : linkUp e b = true) : stranded e b = [] :=
  if_pos h

theorem stranded_of_down (h : linkUp e b = false) : stranded e b = b.waiting e (cardOf e b) :=
  if_neg (by rw [h]; decide)

/-- What a run of a link comes to. -/
structure LinkLedger where
  /-- What waited when the link went down, each time that it did. -/
  left : List Frame := []
  /-- What the stack got, with a token each, while the link was down. -/
  handed : List Frame := []

/-- **A run of a link.**  Whether the link is down is asked when a step is over. -/
inductive LinkRun (e : Handle Endpoint) : Bench → LinkLedger → Bench → Prop
  | start (b : Bench) : LinkRun e b { left := stranded e b } b
  | step {b b' b'' : Bench} {l : LinkLedger} {o : Option Frame} (h : LinkRun e b l b')
    (hs : LinkStep e b' o b'') : LinkRun e b
      { left := l.left ++ if linkUp e b' then stranded e b'' else []
        handed := l.handed ++ if linkUp e b'' then [] else o.toList } b''

/-- One step of a run, told by whether the link is up before it and after it. -/
theorem linkStep_cases {o : Option Frame} (hs : LinkStep e b o b') :
    linkUp e b' = true ∨
    linkUp e b = true ∧ linkUp e b' = false ∧ o = none ∨
    linkUp e b = false ∧ linkUp e b' = false ∧
      (o.toList ++ stranded e b').Sublist (stranded e b) := by
  have h := hs.sheds rfl rfl
  have hcard : cardOf e b' = cardOf e b := by
    rw [cardOf, h.endpoint, h.device]
    rfl
  have hup : linkUp e b' = (b'.nic (cardOf e b)).gate.isReady := by
    rw [← hcard]
    rfl
  cases hb' : linkUp e b' with
  | true => exact Or.inl rfl
  | false =>
    refine Or.inr ?_
    cases hb : linkUp e b with
    | true =>
      refine Or.inl ⟨rfl, rfl, h.silent.resolve_left fun hr => ?_⟩
      exact absurd (hb'.symm.trans (hup.trans (hr.trans hb))) (by decide)
    | false =>
      refine Or.inr ⟨rfl, rfl, ?_⟩
      rw [stranded_of_down hb, stranded_of_down hb', hcard]
      exact h.frames hb (hup.symm.trans hb')

/-- What is handed out while the link is down, and what waits then, was left when the link
went down. -/
theorem LinkRun.sublist {b₀ : Bench} {l : LinkLedger} (hr : LinkRun e b₀ l b) :
    (l.handed ++ stranded e b).Sublist l.left := by
  induction hr with
  | start => exact List.Sublist.refl _
  | @step b' b'' l o _ hs ih =>
    rcases linkStep_cases hs with hup | ⟨hb', hb'', rfl⟩ | ⟨hb', hb'', hsub⟩
    · rw [stranded_of_up hup, if_pos hup, ite_self]
      simpa only [List.append_nil] using (List.sublist_append_left _ _).trans ih
    · rw [stranded_of_up hb', List.append_nil] at ih
      rw [if_pos hb', hb'']
      simpa using ih.append (List.Sublist.refl (stranded e b''))
    · rw [hb', hb'']
      have hstep := ((List.Sublist.refl l.handed).append hsub).trans ih
      simpa using hstep

/-! ## Tokens -/

/-- **Which tokens are to be had**, and which were, at the end of a run. -/
structure Granted (e : Handle Endpoint) (l : LinkLedger) (b : Bench) : Prop where
  transmit : (endpointLink e).transmit? b = none ↔ linkUp e b = false
  /-- A token comes with a received frame, and nobody asks for the link. -/
  receive : (∃ f t, ((endpointLink e).receive? b).2 = .ok (some (f, t))) ↔ Receivable e b
  same : linkUp e ((endpointLink e).receive? b).1 = linkUp e b
  /-- What came with a token while the link was down was left when it went down. -/
  handed : l.handed.Sublist l.left
  /-- If nothing was left, no token is to be had. -/
  down : l.left = [] → linkUp e ((endpointLink e).receive? b).1 = false →
    (endpointLink e).transmit? b = none ∧
      ∀ f t, ((endpointLink e).receive? b).2 ≠ .ok (some (f, t))
  closing : (b.closeEndpoint e).2 = .ok () → stranded e (b.closeEndpoint e).1 = []

/-- **No token while the link is down**, but those that come with frames that were left
when it went down. -/
theorem endpoint_tokens {b₀ : Bench} {l : LinkLedger} (hr : LinkRun e b₀ l b) :
    Granted e l b := by
  have hsame : linkUp e ((endpointLink e).receive? b).1 = linkUp e b := by
    have h := steady_receive? (b := b) (e := e) rfl rfl
    show (_ : Bench).isUp _ = _
    rw [isUp, h.endpoint, h.device]
    exact h.ready
  refine ⟨LinkDriver.transmit?_eq_none_iff _, receive?_token_iff, hsame,
    (List.sublist_append_left _ _).trans hr.sublist, fun hl hdown => ?_, fun hok => ?_⟩
  · rw [hsame] at hdown
    refine ⟨(LinkDriver.transmit?_eq_none_iff _).mpr hdown, fun f t hf => ?_⟩
    -- One more step would hand out a frame that was not left.
    have hsub := (hr.step (.asked b)).sublist
    have hf' : fetched e b = some f := by rw [fetched, hf]; rfl
    rw [hsame, hdown, hf', hl] at hsub
    have hnil := List.append_eq_nil_iff.mp (List.sublist_nil.mp hsub)
    exact nomatch (List.append_eq_nil_iff.mp hnil.1).2
  · have h := sheds_closeEndpoint (b := b) (e := e) rfl rfl
    rw [stranded, cardOf, h.endpoint, h.device]
    split
    · rfl
    · exact waiting_closeEndpoint rfl rfl hok

/-- A bench with an endpoint that was not opened yet. -/
def oneLink : Bench :=
  (oneCard.addEndpoint .standard ⟨0⟩).2

/-- A link comes up, a frame is received and fetched, and another one is sent with the
token that came with it.  Then the endpoint is closed, and opened and closed again. -/
theorem endpoint_tokens_closed : ∃ b l, LinkRun ⟨0⟩ oneLink l b ∧ l.left = [] ∧
    linkUp ⟨0⟩ ((endpointLink ⟨0⟩).receive? b).1 = false ∧ Granted ⟨0⟩ l b := by
  have run : LinkRun ⟨0⟩ oneLink _ _ :=
    (((((((LinkRun.start oneLink).step (.driven _ .up)).step
      (.call _ (.card ⟨0⟩ (.deliver ⟨[1, 2, 3]⟩)))).step (.asked _)).step
      (.answered _ .token ⟨[4, 5]⟩)).step (.driven _ .down)).step (.driven _ .up)).step
      (.driven _ .down)
  exact ⟨_, _, run, by decide +kernel, by decide +kernel, endpoint_tokens run⟩

/-- A frame is received, and others shut the card down before it is fetched.  The link is
down, and a token comes with the frame. -/
theorem token_while_down : ∃ b l, LinkRun ⟨0⟩ oneLink l b ∧ l.left = [⟨[1, 2, 3]⟩] ∧
    (endpointLink ⟨0⟩).transmit? b = none ∧
    ((endpointLink ⟨0⟩).receive? b).2 = .ok (some (⟨[1, 2, 3]⟩, .token)) ∧
    linkUp ⟨0⟩ ((endpointLink ⟨0⟩).receive? b).1 = false := by
  have run : LinkRun ⟨0⟩ oneLink _ _ :=
    (((LinkRun.start oneLink).step (.driven _ .up)).step
      (.call _ (.card ⟨0⟩ (.deliver ⟨[1, 2, 3]⟩)))).step (.call _ (.card ⟨0⟩ .shutDown))
  exact ⟨_, _, run, by decide +kernel, by decide +kernel, by decide +kernel, by decide +kernel⟩

end Bench
end SoftNic
