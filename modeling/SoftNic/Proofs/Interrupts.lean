import SoftNic.Proofs.Admission
import SoftNic.Proofs.CallTrace

/-! # Interrupts

Two calls interrupt: a delivery, if the card takes the frame and its line is armed, and
arming the line of a ready card in whose receive ring frames wait.  The handler that is
installed then runs once (`Call.notifies`).  This module proves that no handler ever runs
otherwise, whatever is called, from outside or from inside a pass, and whatever handlers
are installed and removed meanwhile.

Three things are tracked along a run, and each call tells what becomes of them
(`Bench.CallEffect`): the handlers that have run, the handler that is installed, and whether
a handler has silenced the card since its line was armed last.  That a handler runs only
on an armed line, a ready card and a ring with frames, and that one which silences the
card is not followed by another before the line is armed again, is read off from them.
-/
namespace SoftNic

/-- What one thing that a handler does makes of the interrupt line. -/
def HandlerAction.line (armed : Bool) : HandlerAction → Bool
  | arm => true
  | disarm => false
  | raise _ | schedule _ => armed

/-- What a handler makes of the interrupt line. -/
def lineAfter (actions : List HandlerAction) (armed : Bool) : Bool :=
  actions.foldl HandlerAction.line armed

/-- The handler that an interrupt runs. -/
def Nic.interruptRuns (x : Nic) : Option (List HandlerAction) :=
  if x.gate.armed then x.handler else none

namespace Call

/-- The handler of a card that a call notifies. -/
def notifies (n : Handle Nic) : Call → Option (List HandlerAction)
  | made (.card m (.deliver _)) b =>
    if m = n ∧ (b.nic n).Admits .receive ∧ (b.nic n).gate.armed = true
      then (b.nic n).handler else none
  | made (.card m .rearm) b =>
    if m = n ∧ (b.nic n).gate.isReady = true ∧ (b.nic n).rx.toList ≠ []
      then (b.nic n).handler else none
  | _ => none

/-- The card as the handler finds it that the call notifies: a delivered frame is in the
ring already, and a line that is armed is armed already. -/
def cardAtHandler (n : Handle Nic) : Call → Nic
  | made (.card _ (.deliver f)) b => (b.accept n .receive f).1.nic n
  | x => (x.found.armLine n).nic n

/-- The handler of a card after a call. -/
def installs (n : Handle Nic) (handler : Option (List HandlerAction)) :
    Call → Option (List HandlerAction)
  | made (.installHandler m as) _ => if m = n then some as else handler
  | made (.card m .removeHandler) _ => if m = n then none else handler
  | _ => handler

/-- The call arms the line of a card: on demand, or because it brings the card up. -/
def arms (n : Handle Nic) : Call → Bool
  | made (.card m .rearm) _ => m = n
  | made (.card m .bringUp) b => m = n && !(b.nic n).gate.isReady
  | _ => false

/-- The call notifies a handler that leaves the line disarmed. -/
def silences (n : Handle Nic) (x : Call) : Bool :=
  match x.notifies n with
  | some as => !lineAfter as true
  | none => false

theorem silences_of_none {n : Handle Nic} {x : Call} (h : x.notifies n = none) :
    x.silences n = false := by
  rw [silences, h]

/-- A call notifies for one of two reasons. -/
theorem notifies_cases {n : Handle Nic} {x : Call} {as : List HandlerAction}
    (h : x.notifies n = some as) :
    (∃ f b, x = made (.card n (.deliver f)) b ∧ (b.nic n).Admits .receive ∧
      (b.nic n).gate.armed = true ∧ (b.nic n).handler = some as) ∨
    ∃ b, x = made (.card n .rearm) b ∧ (b.nic n).gate.isReady = true ∧
      (b.nic n).rx.toList ≠ [] ∧ (b.nic n).handler = some as := by
  unfold notifies at h
  split at h
  · next m f b =>
    split at h
    · next hc =>
      obtain ⟨rfl, hadmits, harmed⟩ := hc
      exact Or.inl ⟨f, b, rfl, hadmits, harmed, h⟩
    · cases h
  · next m b =>
    split at h
    · next hc =>
      obtain ⟨rfl, hready, hrx⟩ := hc
      exact Or.inr ⟨b, rfl, hready, hrx, h⟩
    · cases h
  · cases h

/-- The handler finds the line armed, the card ready, and a frame in the ring. -/
theorem cardAtHandler_of_notifies {n : Handle Nic} {x : Call} {as : List HandlerAction}
    (h : x.notifies n = some as) :
    (x.cardAtHandler n).gate = ⟨.ready, true⟩ ∧ (x.cardAtHandler n).rx.toList ≠ [] ∧
      (x.cardAtHandler n).handler = some as ∧ (x.found.nic n).handler = some as := by
  have gate : ∀ g : Gate, g.isReady = true → g.armed = true → g = ⟨.ready, true⟩ := by
    rintro ⟨phase, armed⟩ hready rfl
    simp only [Gate.isReady, beq_iff_eq] at hready
    rw [hready]
  rcases notifies_cases h with ⟨f, b, rfl, hadmits, harmed, hh⟩ | ⟨b, rfl, hready, hrx, hh⟩
  · have hc := b.accept_control n .receive f
    have hok := (b.accept_ok_iff n .receive f).mpr hadmits
    refine ⟨hc.gate.trans (gate _ hadmits.1 harmed), ?_, hc.handler.trans hh, hh⟩
    show (((b.accept n .receive f).1.nic n).ring .receive).toList ≠ []
    rw [Bench.toList_ring_accept hok]
    exact List.append_ne_nil_of_right_ne_nil _ (List.cons_ne_nil f [])
  · have hc : cardAtHandler n (made (.card n .rearm) b) =
        { b.nic n with gate := (b.nic n).gate.arm } := Bench.nic_modifyNic_self ..
    rw [hc]
    exact ⟨gate _ hready rfl, hrx, hh, hh⟩

end Call

namespace Bench

variable {n m : Handle Nic} {b b' b'' b₀ : Bench} {l : List Call} {x : Call}

/-! ## What an interrupt does -/

@[simp] theorem nic_disableContext (b : Bench) (c : Handle PollContext) (n : Handle Nic) :
    (b.disableContext c).1.nic n = b.nic n := by
  unfold disableContext
  split <;> rfl

@[simp] theorem nic_schedule (b : Bench) (c : Handle PollContext) (n : Handle Nic) :
    (b.schedule c).1.nic n = b.nic n := by
  unfold schedule
  split <;> rfl

theorem notifications_act (m n : Handle Nic) (b : Bench) (a : HandlerAction) :
    (act m b a).notifications n = b.notifications n := by
  cases a with
  | raise s => exact (unmarked_raise b s).notifications n
  | arm => exact ((Unmarked.refl b).modifyNic m _).notifications n
  | disarm => exact ((Unmarked.refl b).modifyNic m _).notifications n
  | schedule c => exact notifications_schedule b c n

theorem notifications_foldl_act (m n : Handle Nic) (as : List HandlerAction) (b : Bench) :
    (as.foldl (act m) b).notifications n = b.notifications n := by
  induction as generalizing b with
  | nil => rfl
  | cons a as ih => exact (ih _).trans (notifications_act m n b a)

/-- An interrupt runs a handler once, if it runs one at all. -/
theorem notifications_interrupt (b : Bench) (n : Handle Nic) :
    (b.interrupt n).1.notifications n =
      b.notifications n ++ (b.nic n).interruptRuns.toList := by
  unfold interrupt Nic.interruptRuns
  split
  · split
    · next as hh =>
      rw [notifications_foldl_act, notifications_record, hh]
      simp [Event.notified?]
    · next hh => rw [hh, Option.toList_none, List.append_nil]
  · rw [Option.toList_none, List.append_nil]

theorem notifications_interrupt_of_ne (h : m ≠ n) (b : Bench) :
    (b.interrupt m).1.notifications n = b.notifications n := by
  unfold interrupt
  split
  · split
    · rw [notifications_foldl_act, notifications_record]
      simp [Event.notified?, h]
    · rfl
  · rfl

theorem armed_act (n : Handle Nic) (b : Bench) (a : HandlerAction) :
    ((act n b a).nic n).gate.armed = a.line (b.nic n).gate.armed := by
  cases a with
  | raise s => rfl
  | arm => exact congrArg (·.gate.armed) (nic_modifyNic_self b n _)
  | disarm => exact congrArg (·.gate.armed) (nic_modifyNic_self b n _)
  | schedule c => exact congrArg (·.gate.armed) (nic_schedule b c n)

theorem armed_foldl_act (n : Handle Nic) (as : List HandlerAction) (b : Bench) :
    ((as.foldl (act n) b).nic n).gate.armed = lineAfter as (b.nic n).gate.armed := by
  induction as generalizing b with
  | nil => rfl
  | cons a as ih => rw [List.foldl_cons, ih, armed_act]; rfl

/-- The line after an interrupt is as the handler leaves it. -/
theorem armed_interrupt (b : Bench) (n : Handle Nic) :
    ((b.interrupt n).1.nic n).gate.armed =
      match (b.nic n).interruptRuns with
      | some as => lineAfter as true
      | none => (b.nic n).gate.armed := by
  unfold interrupt Nic.interruptRuns
  by_cases ha : (b.nic n).gate.armed = true
  · rw [if_pos ha, if_pos ha]
    cases hh : (b.nic n).handler with
    | none => rfl
    | some as =>
      dsimp only
      rw [armed_foldl_act, nic_record, ha]
  · rw [if_neg ha, if_neg ha]

/-! ## What a call does -/

/-- **What a call comes to for a card**: it notifies the handler that it should, leaves the
handler installed that it should, and disarms the line if a handler silences the card.  A
line that is disarmed stays so unless the call arms it. -/
structure CallEffect (n : Handle Nic) (b : Bench) (x : Call) (b' : Bench) : Prop where
  notified : b'.notifications n = b.notifications n ++ (x.notifies n).toList
  handler : (b'.nic n).handler = x.installs n (b.nic n).handler
  silenced : x.silences n = true → (b'.nic n).gate.armed = false
  disarmed : x.arms n = false → (b.nic n).gate.armed = false → (b'.nic n).gate.armed = false

/-- No handler runs. -/
theorem effect_of_quiet (hx : x.notifies n = none)
    (hn : b'.notifications n = b.notifications n)
    (hh : (b'.nic n).handler = x.installs n (b.nic n).handler)
    (ha : x.arms n = false → (b.nic n).gate.armed = false → (b'.nic n).gate.armed = false) :
    CallEffect n b x b' where
  notified := by rw [hx, hn, Option.toList_none, List.append_nil]
  handler := hh
  silenced hs := by
    rw [Call.silences_of_none hx] at hs
    cases hs
  disarmed := ha

/-- The card stays as it is. -/
theorem effect_of_nic_eq (hx : x.notifies n = none) (hi : x.installs n (b.nic n).handler =
      (b.nic n).handler) (hn : b'.notifications n = b.notifications n)
    (hb : b'.nic n = b.nic n) : CallEffect n b x b' :=
  effect_of_quiet hx hn (by rw [hb, hi]) fun _ ha => by rw [hb, ha]

theorem CallEffect.same (h : CallEffect n b x b') (hn : b''.notifications n = b'.notifications n)
    (hb : b''.nic n = b'.nic n) : CallEffect n b x b'' where
  notified := hn.trans h.notified
  handler := by rw [hb, h.handler]
  silenced hs := by rw [hb, h.silenced hs]
  disarmed hx ha := by rw [hb, h.disarmed hx ha]

/-- A call that comes to an interrupt, on a bench where the line may have been armed. -/
theorem effect_of_interrupt (hu : Unmarked b b') (hx : x.notifies n = (b'.nic n).interruptRuns)
    (hh : (b'.nic n).handler = (b.nic n).handler)
    (hi : x.installs n (b.nic n).handler = (b.nic n).handler)
    (ha : x.arms n = false → (b'.nic n).gate.armed = (b.nic n).gate.armed) :
    CallEffect n b x (b'.interrupt n).1 where
  notified := by rw [notifications_interrupt, hu.notifications, hx]
  handler := by rw [(interrupted_interrupt b' n).handler_eq, hh, hi]
  silenced hs := by
    rw [armed_interrupt, ← hx]
    unfold Call.silences at hs
    cases h : x.notifies n with
    | none =>
      rw [h] at hs
      cases hs
    | some as =>
      rw [h] at hs
      simpa using hs
  disarmed hx' hd := by
    have hm : (b'.nic n).gate.armed = false := by rw [ha hx', hd]
    rw [interrupt_of_masked hm, hm]

theorem notifications_rearm_of_ne (h : m ≠ n) (b : Bench) :
    (b.rearm m).notifications n = b.notifications n := by
  rw [rearm_eq]
  split
  · rw [notifications_interrupt_of_ne h, (unmarked_armLine b m).notifications]
  · exact (unmarked_armLine b m).notifications n

theorem notifications_deliver_of_ne (h : m ≠ n) (b : Bench) (f : Frame) :
    (b.deliver m f).1.notifications n = b.notifications n := by
  have ha := (unmarked_accept b m .receive f).notifications n
  cases hr : (b.accept m .receive f).2 with
  | error r => rw [deliver_of_error hr, ha]
  | ok =>
    rw [deliver_of_ok hr, ((Unmarked.refl _).recordIf _ _ rfl).notifications,
      notifications_interrupt_of_ne h, ha]

/-- A call at one card is nothing to another. -/
theorem effect_of_other_card (h : m ≠ n) (b : Bench) (op : CardOp) :
    CallEffect n b (.made (.card m op) b) (cardStep m b op) := by
  have only : ∀ b', OnlyCard m b b' → Unmarked b b' →
      (Call.made (.card m op) b).notifies n = none →
      (Call.made (.card m op) b).installs n (b.nic n).handler = (b.nic n).handler →
      CallEffect n b (.made (.card m op) b) b' :=
    fun b' ho hu hx hi => effect_of_nic_eq hx hi (hu.notifications n) (ho.nic n h.symm)
  cases op with
  | setUp => exact only _ (onlyCard_setUp b m) (unmarked_setUp b m) rfl rfl
  | bringUp => exact only _ (onlyCard_bringUp b m) (unmarked_bringUp b m) rfl rfl
  | shutDown => exact only _ (onlyCard_shutDown b m) (unmarked_shutDown b m) rfl rfl
  | tearDown => exact only _ (onlyCard_tearDown b m) (unmarked_tearDown b m) rfl rfl
  | rearm =>
    refine effect_of_nic_eq (if_neg fun hc => h hc.1) rfl (notifications_rearm_of_ne h b) ?_
    exact (interrupted_rearm b m).nic n h.symm
  | mask => exact only _ (onlyCard_mask b m) (unmarked_mask b m) rfl rfl
  | removeHandler =>
    exact only _ (onlyCard_removeHandler b m) (unmarked_removeHandler b m) rfl (if_neg h)
  | transmit f =>
    refine effect_of_nic_eq rfl rfl ((unmarked_transmit b m f).notifications n) ?_
    exact ((b.transmit_eq m f).2.nic n h.symm).trans ((onlyCard_accept b m _ f).nic n h.symm)
  | deliver f =>
    refine effect_of_nic_eq (if_neg fun hc => h hc.1) rfl (notifications_deliver_of_ne h b f) ?_
    exact ((b.deliver_eq m f).2.nic n h.symm).trans ((onlyCard_accept b m _ f).nic n h.symm)
  | take i => exact only _ (onlyCard_take b m i) (unmarked_take b m i) rfl rfl

/-- Arming the line of a ready card interrupts if frames wait. -/
theorem effect_rearm (b : Bench) (n : Handle Nic) :
    CallEffect n b (.made (.card n .rearm) b) (b.rearm n) := by
  have hc : (b.armLine n).nic n = { b.nic n with gate := (b.nic n).gate.arm } :=
    nic_modifyNic_self ..
  have hx : (Call.made (.card n .rearm) b).notifies n =
      if (b.nic n).gate.isReady && !(b.nic n).rx.isEmpty then (b.nic n).handler else none := by
    have hrx : (b.nic n).rx.isEmpty = false ↔ (b.nic n).rx.toList ≠ [] := by
      rw [← Bool.not_eq_true, Ring.isEmpty_iff]
    simp only [Call.notifies, Bool.and_eq_true, Bool.not_eq_true', hrx, true_and]
  rw [rearm_eq]
  split
  · next hw =>
    refine effect_of_interrupt (unmarked_armLine b n) ?_ (by rw [hc]) rfl fun ha => ?_
    · rw [hx, if_pos hw, hc]
      rfl
    · simp [Call.arms] at ha
  · next hw =>
    refine effect_of_quiet (by rw [hx, if_neg hw]) ((unmarked_armLine b n).notifications n)
      (by rw [hc]; rfl) fun ha => ?_
    simp [Call.arms] at ha

/-- A delivery interrupts if the card takes the frame. -/
theorem effect_deliver (b : Bench) (n : Handle Nic) (f : Frame) :
    CallEffect n b (.made (.card n (.deliver f)) b) (b.deliver n f).1 := by
  have hu := unmarked_accept b n .receive f
  have hc := b.accept_control n .receive f
  by_cases ha : (b.nic n).Admits .receive
  · have hok := (b.accept_ok_iff n .receive f).mpr ha
    have hi : CallEffect n b (.made (.card n (.deliver f)) b)
        ((b.accept n .receive f).1.interrupt n).1 := by
      refine effect_of_interrupt hu ?_ hc.handler rfl fun _ => congrArg Gate.armed hc.gate
      simp [Call.notifies, Nic.interruptRuns, ha, hc.gate, hc.handler]
    rw [deliver_of_ok hok]
    exact hi.same (((Unmarked.refl _).recordIf _ _ rfl).notifications n) (nic_recordIf ..)
  · obtain ⟨hr, -⟩ := accept_of_not_admits ha f
    rw [deliver_of_error hr]
    refine effect_of_quiet (if_neg fun hx => ha hx.2.1) (hu.notifications n) hc.handler ?_
    intro _ hd
    rw [hc.gate, hd]

theorem effect_cardStep (b : Bench) (n : Handle Nic) (op : CardOp) :
    CallEffect n b (.made (.card n op) b) (cardStep n b op) := by
  -- A card that changes nothing but its rings and counters.
  have same : ∀ b', (Call.made (.card n op) b).notifies n = none →
      (Call.made (.card n op) b).installs n (b.nic n).handler = (b.nic n).handler →
      Unmarked b b' → (b.nic n).SameControl (b'.nic n) →
      CallEffect n b (.made (.card n op) b) b' := fun b' hx hi hu hc =>
    effect_of_quiet hx (hu.notifications n) (by rw [hc.handler, hi]) fun _ ha => by
      rw [hc.gate, ha]
  cases op with
  | setUp =>
    refine same (b.setUp n) rfl rfl (unmarked_setUp b n) ?_
    by_cases hr : (b.nic n).gate.isReady = true
    · rw [nic_setUp_of_ready hr]
      exact ⟨rfl, rfl, rfl⟩
    · rw [nic_setUp_of_not_ready hr]
      exact ⟨rfl, rfl, rfl⟩
  | bringUp =>
    by_cases hr : (b.nic n).gate.isReady = true
    · refine same (b.bringUp n) rfl rfl (unmarked_bringUp b n) ?_
      rw [nic_bringUp_of_ready hr]
      exact ⟨rfl, rfl, rfl⟩
    · show CallEffect n b _ (b.bringUp n)
      refine effect_of_quiet rfl ((unmarked_bringUp b n).notifications n) ?_ fun ha => ?_
      · rw [nic_bringUp_of_not_ready hr]
        rfl
      · simp [Call.arms, hr] at ha
  | shutDown =>
    show CallEffect n b _ (b.shutDown n)
    refine effect_of_quiet rfl ((unmarked_shutDown b n).notifications n) ?_ fun _ _ => ?_
    · rw [nic_shutDown]
      rfl
    · rw [nic_shutDown]
      rfl
  | tearDown =>
    show CallEffect n b _ (b.tearDown n).1
    refine effect_of_quiet rfl ((unmarked_tearDown b n).notifications n) ?_ fun _ ha => ?_
    · rw [nic_tearDown]
      rfl
    · rw [nic_tearDown, ha, Bool.and_false]
  | rearm => exact effect_rearm b n
  | mask =>
    show CallEffect n b _ (b.mask n)
    refine effect_of_quiet rfl ((unmarked_mask b n).notifications n) ?_ fun _ _ => ?_
    · rw [nic_mask]
      rfl
    · rw [nic_mask]
      rfl
  | removeHandler =>
    show CallEffect n b _ (b.removeHandler n)
    refine effect_of_quiet rfl ((unmarked_removeHandler b n).notifications n) ?_ fun _ ha => ?_
    · rw [nic_removeHandler]
      exact (if_pos rfl).symm
    · rw [nic_removeHandler, ha]
  | transmit f =>
    refine same (b.transmit n f).1 rfl rfl (unmarked_transmit b n f) ?_
    have hc := b.accept_control n .transmit f
    rcases b.transmit_cases n f with ht | ⟨t, -, ht⟩
    · rw [ht]
      exact hc
    · rw [ht]
      exact hc
  | deliver f => exact effect_deliver b n f
  | take i => exact same _ rfl rfl (unmarked_take b n i) (b.take_control n i)

/-- No handler depends on the hook. -/
theorem effect_of_hook (b : Bench) (m : Handle Nic) (hook : Option (Handle Signal))
    (hx : x.notifies n = none) (hi : x.installs n (b.nic n).handler = (b.nic n).handler) :
    CallEffect n b x (b.modifyNic m fun y => { y with hook }) := by
  refine effect_of_quiet hx (((Unmarked.refl b).modifyNic m _).notifications n) ?_ fun _ ha => ?_
  · by_cases hm : n = m
    · subst hm
      rw [nic_modifyNic_self, hi]
    · rw [nic_modifyNic_of_ne b hm, hi]
  · by_cases hm : n = m
    · subst hm
      rw [nic_modifyNic_self, ha]
    · rw [nic_modifyNic_of_ne b hm, ha]

theorem effect_benchStep (n : Handle Nic) (b : Bench) (op : BenchOp) :
    CallEffect n b (.made op b) (benchStep b op) := by
  cases op with
  | card m op =>
    by_cases hm : m = n
    · subst hm
      exact effect_cardStep b m op
    · exact effect_of_other_card hm b op
  | installHandler m as =>
    have hn := (unmarked_installHandler b m as).notifications n
    show CallEffect n b _ (b.installHandler m as)
    by_cases hm : m = n
    · subst hm
      refine effect_of_quiet rfl hn ?_ fun _ ha => ?_
      · rw [nic_installHandler]
        exact (if_pos rfl).symm
      · rw [nic_installHandler, ha]
    · exact effect_of_nic_eq rfl (if_neg hm) hn
        ((onlyCard_installHandler b m as).nic n (Ne.symm hm))
  | setHook m s => exact effect_of_hook b m (some s) rfl rfl
  | clearHook m => exact effect_of_hook b m none rfl rfl
  | enable c =>
    refine effect_of_nic_eq rfl rfl ((unmarked_enableContext b c).notifications n) ?_
    show (b.enableContext c).nic n = b.nic n
    rw [nic, (interrupted_enableContext n b c).2.1, ← nic]
  | disable c =>
    exact effect_of_nic_eq rfl rfl ((unmarked_disableContext b c).notifications n)
      (nic_disableContext b c n)
  | schedule c =>
    exact effect_of_nic_eq rfl rfl (notifications_schedule b c n) (nic_schedule b c n)

/-! ## What a run does -/

/-- The handler of a card after a number of calls. -/
def standing (n : Handle Nic) (handler : Option (List HandlerAction)) (l : List Call) :
    Option (List HandlerAction) :=
  l.foldl (Call.installs n) handler

/-- Whether a handler has silenced the card since its line was armed last. -/
def silenced (n : Handle Nic) (l : List Call) : Bool :=
  l.foldl (fun s x => x.silences n || s && !x.arms n) false

/-- **A run keeps track of a card**: of the handlers that have run since it began, of the
handler that is installed, and of its line once a handler has silenced it. -/
structure Tracked (n : Handle Nic) (b₀ b : Bench) (l : List Call) : Prop where
  notified : b.notifications n = b₀.notifications n ++ l.filterMap (·.notifies n)
  handler : (b.nic n).handler = standing n (b₀.nic n).handler l
  silent : silenced n l = true → (b.nic n).gate.armed = false

namespace Tracked

theorem refl (n : Handle Nic) (b : Bench) : Tracked n b b [] where
  notified := (List.append_nil _).symm
  handler := rfl
  silent := nofun

theorem call (h : Tracked n b₀ b l) (he : CallEffect n b x b') : Tracked n b₀ b' (l ++ [x]) where
  notified := by
    rw [he.notified, h.notified, List.filterMap_append, List.append_assoc]
    cases hx : x.notifies n <;> simp [hx]
  handler := by rw [he.handler, h.handler, standing, standing, List.foldl_append]; rfl
  silent hs := by
    rw [silenced, List.foldl_append, ← silenced, List.foldl_cons, List.foldl_nil,
      Bool.or_eq_true, Bool.and_eq_true, Bool.not_eq_true'] at hs
    rcases hs with hs | ⟨hs, ha⟩
    · exact he.silenced hs
    · exact he.disarmed ha (h.silent hs)

/-- Nothing happened to the card. -/
theorem same (h : Tracked n b₀ b l) (hn : b'.notifications n = b.notifications n)
    (hc : (b.nic n).SameControl (b'.nic n)) : Tracked n b₀ b' l where
  notified := hn.trans h.notified
  handler := hc.handler.trans h.handler
  silent hs := by rw [hc.gate, h.silent hs]

/-- A poll by itself notifies nobody. -/
theorem polled (h : Tracked n b₀ b l) (c : Handle PollContext) (found : Bench) :
    Tracked n b₀ b (l ++ [.polled c found]) :=
  h.call (effect_of_nic_eq rfl rfl rfl rfl)

theorem take (h : Tracked n b₀ b l) (m : Handle Nic) (i : Direction) :
    Tracked n b₀ (b.take m i).1 l := by
  refine h.same ((unmarked_take b m i).notifications n) ?_
  by_cases hm : n = m
  · subst hm
    exact b.take_control n i
  · rw [(onlyCard_take b m i).nic n hm]
    exact ⟨rfl, rfl, rfl⟩

theorem stepInvariant (n : Handle Nic) (b₀ : Bench) : StepInvariant (Tracked n b₀) where
  call b _ op h := h.call (effect_benchStep n b op)
  take _ _ m i h := h.take m i
  beside _ _ _ hb h := h.same (hb.unmarked.notifications n) (by rw [hb.nic]; exact ⟨rfl, rfl, rfl⟩)
  passBegins b _ c _ h := (h.polled c b).same
    ((((Unmarked.refl b).setPhase c .draining).record _ rfl).notifications n) ⟨rfl, rfl, rfl⟩
  noPass b _ c _ h := h.polled c b
  passEnds b _ c _ h :=
    h.same (((Unmarked.refl b).setPhase c .idle).notifications n) ⟨rfl, rfl, rfl⟩
  passGoesOn b _ c _ h := h.same (notifications_request b c n) ⟨rfl, rfl, rfl⟩

end Tracked

/-- A card that was silenced stays so until its line is armed. -/
theorem silenced_of_silences {pre mid : List Call} (hx : x.silences n = true)
    (hmid : ∀ z ∈ mid, z.arms n = false) : silenced n (pre ++ x :: mid) = true := by
  have stays : ∀ mid : List Call, (∀ z ∈ mid, z.arms n = false) →
      mid.foldl (fun s x => x.silences n || s && !x.arms n) true = true := by
    intro mid
    induction mid with
    | nil => exact fun _ => rfl
    | cons z mid ih =>
      intro hmid
      have hz := hmid z List.mem_cons_self
      rw [List.foldl_cons, hz, Bool.not_false, Bool.and_true, Bool.or_true]
      exact ih fun w hw => hmid w (List.mem_cons_of_mem z hw)
  rw [silenced, List.foldl_append, List.foldl_cons, hx, Bool.true_or]
  exact stays mid hmid

/-- **Handlers run exactly when they should.**  In every run, the handlers of a card that
have run are those that the calls notify, one for each, in the order of the calls; and so
it was whenever a call was made.  The handler that a call notifies is the one installed
last and not removed since, and it finds the line armed, the card ready and a frame in
the receive ring.  Between one handler that leaves the line disarmed and the next that
runs, the line was armed: on demand, or because the card was brought up. -/
theorem notified_exactly (n : Handle Nic) {b₀ : Bench} (hr : CallRun b₀ [] b l) :
    b.notifications n = b₀.notifications n ++ l.filterMap (·.notifies n) ∧
    (∀ pre x, pre ++ [x] <+: l →
      x.found.notifications n = b₀.notifications n ++ pre.filterMap (·.notifies n)) ∧
    (∀ pre x as, pre ++ [x] <+: l → x.notifies n = some as →
      standing n (b₀.nic n).handler pre = some as ∧ (x.cardAtHandler n).handler = some as ∧
      (x.cardAtHandler n).gate = ⟨.ready, true⟩ ∧ (x.cardAtHandler n).rx.toList ≠ []) ∧
    ∀ pre x mid y, (pre ++ x :: mid) ++ [y] <+: l → x.silences n = true →
      (y.notifies n).isSome = true → ∃ z ∈ mid ++ [y], z.arms n = true := by
  have h := hr.keep (Tracked.stepInvariant n b₀).always (.nil (.refl n b₀))
  refine ⟨h.now.notified, fun pre x hx => (h.before pre x hx).notified, ?_, ?_⟩
  · intro pre x as hx hn
    obtain ⟨hg, hrx, hh, hf⟩ := Call.cardAtHandler_of_notifies hn
    exact ⟨(h.before pre x hx).handler.symm.trans hf, hh, hg, hrx⟩
  · intro pre x mid y hy hx hn
    refine Classical.byContradiction fun hno => ?_
    have hmid : ∀ z ∈ mid ++ [y], z.arms n = false := by
      intro z hz
      cases ha : z.arms n with
      | false => rfl
      | true => exact absurd ⟨z, hz, ha⟩ hno
    -- The line stayed disarmed up to the last call, which then must have armed it.
    have hoff := (h.before _ y hy).silent
      (silenced_of_silences hx fun z hz => hmid z (List.mem_append_left _ hz))
    have hya := hmid y (by simp)
    obtain ⟨as, has⟩ := Option.isSome_iff_exists.mp hn
    rcases Call.notifies_cases has with ⟨f, found, rfl, -, harmed, -⟩ | ⟨found, rfl, -⟩
    · cases hoff.symm.trans harmed
    · simp [Call.arms] at hya

/-- A frame interrupts; the handler disarms the line and asks for a pass.  Arming the line
while the frame waits interrupts again.  The pass takes the frame and finds nothing more,
so arming the line at its end does not interrupt. -/
theorem notified_exactly_twice :
    ∃ (b₀ b : Bench) (n : Handle Nic) (l : List Call) (as : List HandlerAction),
      CallRun b₀ [] b l ∧ l.filterMap (·.notifies n) = [as, as] ∧ l.length = 7 ∧
        b.notifications n = b₀.notifications n ++ [as, as] := by
  let c : Handle PollContext := ⟨0⟩
  let n : Handle Nic := ⟨0⟩
  let b₀ : Bench := (((default : Bench).addNic default).2.addContext ⟨0⟩).2
  have run : CallRun b₀ [] _ _ :=
    (((((CallRun.call _ _ (.enable c)).trans
      (.call _ _ (.installHandler n (passHandler c)))).trans (.call _ _ (.card n .bringUp))).trans
      (.call _ _ (.card n (.deliver ⟨[1]⟩)))).trans (.call _ _ (.card n .rearm))).trans
      (.poll _ _ c n 2 (fun _ y => y) () fun _ _ y _ => .done y.1 y.2.2)
  refine ⟨b₀, _, n, _, passHandler c, run, by decide +kernel, by decide +kernel, ?_⟩
  rw [(notified_exactly n run).1]
  exact congrArg _ (by decide +kernel)

end Bench
end SoftNic
