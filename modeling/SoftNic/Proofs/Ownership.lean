import SoftNic.Bench.Endpoint
import SoftNic.Proofs.Traffic

/-! # Whose signal it is

An endpoint makes three parts for itself: a signal, a context that asks by it,
and a device that has the context.  Nobody else is given them, so nobody else
should be able to raise the signal, take it, or move the context, apart from
asking the context for a pass.  This module says what keeps it so.

What a part holds of others is settled when it is put on the bench, except for
handlers; `SameTies` says that an operation changes none of it, and installs no
handler that raises the signal.  Most operations do less: they raise no signal at
all, and move no context but one (`Quiet`).  What an endpoint owns (`Owned`) is
stable under all of them, and what others do comes to nothing for it or schedules
its idle context (`Nudged`).

It begins on a bench where no part refers to one that is yet to come
(`Closed`): what is then put there anew is its maker's alone.
-/
namespace SoftNic

namespace Store

variable {α : Type} {s s' : Store α} {a : α} {h k : Handle α}

/-- A handle that was given out. -/
def Has (s : Store α) (h : Handle α) : Prop :=
  h.index < s.next

instance : Decidable (s.Has h) :=
  inferInstanceAs (Decidable (h.index < s.next))

theorem get_of_add [Inhabited α] (ha : s.add a = (k, s')) : s'.get k = a := by
  obtain ⟨rfl, rfl⟩ := Prod.mk.inj ha
  exact s.get_add_self a

/-- Putting a new part in its own place changes nothing. -/
theorem set_of_add (ha : s.add a = (k, s')) : s'.set k a = s' := by
  obtain ⟨rfl, rfl⟩ := Prod.mk.inj ha
  simp [set, place_place]

theorem has_of_add (ha : s.add a = (k, s')) : s'.Has k := by
  obtain ⟨rfl, rfl⟩ := Prod.mk.inj ha
  exact Nat.lt_succ_self _

theorem Has.add (hh : s.Has h) (ha : s.add a = (k, s')) : s'.Has h := by
  obtain ⟨rfl, rfl⟩ := Prod.mk.inj ha
  exact Nat.lt_succ_of_lt hh

/-- A new part gets a handle that was not given out before. -/
theorem Has.ne_of_add (hh : s.Has h) (ha : s.add a = (k, s')) : h ≠ k := by
  obtain ⟨rfl, rfl⟩ := Prod.mk.inj ha
  rintro rfl
  exact Nat.lt_irrefl _ hh

theorem Has.get_of_add [Inhabited α] (hh : s.Has h) (ha : s.add a = (k, s')) :
    s'.get h = s.get h := by
  have hne := hh.ne_of_add ha
  obtain ⟨rfl, rfl⟩ := Prod.mk.inj ha
  exact s.get_add_of_ne a hne

theorem has_cases_of_add (hh : s'.Has h) (ha : s.add a = (k, s')) : s.Has h ∨ h = k := by
  obtain ⟨rfl, rfl⟩ := Prod.mk.inj ha
  exact (Nat.lt_succ_iff_lt_or_eq.mp hh).imp_right Handle.ext

end Store

/-- An action of a handler leaves a signal to its owner: it does not raise it,
and asks only contexts that are on the bench. -/
def HandlerAction.Leaves (b : Bench) (s : Handle Signal) : HandlerAction → Prop
  | .raise t => t ≠ s
  | .arm => True
  | .disarm => True
  | .schedule k => b.contexts.Has k

/-- An action of a handler names only what is on the bench. -/
def HandlerAction.Known (b : Bench) : HandlerAction → Prop
  | .raise t => b.signals.Has t
  | .arm => True
  | .disarm => True
  | .schedule k => b.contexts.Has k

namespace Bench

variable {e : Handle Endpoint} {d : Handle Device} {n m : Handle Nic} {c k : Handle PollContext}
  {s t : Handle Signal} {b b' b'' : Bench}

/-! ## What parts hold of each other -/

/-- The same parts are on two benches, and what they were made with has not
changed.  Only a handler may be gone, or be another one that leaves the signal to
its owner. -/
structure SameTies (s : Handle Signal) (b b' : Bench) : Prop where
  contexts : b'.contexts.next = b.contexts.next
  signals : b'.signals.next = b.signals.next
  devices : b'.devices.next = b.devices.next
  endpoints : b'.endpoints.next = b.endpoints.next
  request : ∀ k, (b'.context k).request = (b.context k).request
  device : ∀ x, (b'.device x).nic = (b.device x).nic ∧ (b'.device x).context = (b.device x).context
  weight : ∀ x, (b'.device x).weight = (b.device x).weight
  endpoint : ∀ x, (b'.endpoint x).device = (b.endpoint x).device ∧
    (b'.endpoint x).request = (b.endpoint x).request
  hook : ∀ m, (b'.nic m).hook = (b.nic m).hook
  handler : ∀ m as, (b'.nic m).handler = some as → (b.nic m).handler = some as ∨
    ∀ a ∈ as, a.Leaves b s

namespace SameTies

theorem has_context (h : SameTies s b b') : b'.contexts.Has k ↔ b.contexts.Has k := by
  rw [Store.Has, Store.Has, h.contexts]

theorem leaves_iff (h : SameTies s b b') {a : HandlerAction} : a.Leaves b' t ↔ a.Leaves b t := by
  cases a with
  | raise _ => exact Iff.rfl
  | arm => exact Iff.rfl
  | disarm => exact Iff.rfl
  | schedule k => exact h.has_context

theorem refl (b : Bench) : SameTies s b b :=
  ⟨rfl, rfl, rfl, rfl, fun _ => rfl, fun _ => ⟨rfl, rfl⟩, fun _ => rfl, fun _ => ⟨rfl, rfl⟩,
    fun _ => rfl, fun _ _ => Or.inl⟩

theorem trans (h : SameTies s b b') (g : SameTies s b' b'') : SameTies s b b'' where
  contexts := g.contexts.trans h.contexts
  signals := g.signals.trans h.signals
  devices := g.devices.trans h.devices
  endpoints := g.endpoints.trans h.endpoints
  request k := (g.request k).trans (h.request k)
  device x := ⟨(g.device x).1.trans (h.device x).1, (g.device x).2.trans (h.device x).2⟩
  weight x := (g.weight x).trans (h.weight x)
  endpoint x := ⟨(g.endpoint x).1.trans (h.endpoint x).1, (g.endpoint x).2.trans (h.endpoint x).2⟩
  hook m := (g.hook m).trans (h.hook m)
  handler m as has := by
    rcases g.handler m as has with has | has
    · exact h.handler m as has
    · exact Or.inr fun a ha => h.leaves_iff.mp (has a ha)

/-- An operation that changes neither a card nor who is on the bench. -/
theorem of_nics (hn : b'.nics = b.nics) (hc : b'.contexts.next = b.contexts.next)
    (hs : b'.signals.next = b.signals.next)
    (hr : ∀ k, (b'.context k).request = (b.context k).request)
    (hd : b'.devices = b.devices) (he : b'.endpoints = b.endpoints) : SameTies s b b' where
  contexts := hc
  signals := hs
  devices := by rw [hd]
  endpoints := by rw [he]
  request := hr
  device _ := by rw [Bench.device, hd, Bench.device]; exact ⟨rfl, rfl⟩
  weight _ := by rw [Bench.device, hd, Bench.device]
  endpoint _ := by rw [Bench.endpoint, he, Bench.endpoint]; exact ⟨rfl, rfl⟩
  hook _ := by rw [Bench.nic, hn, Bench.nic]
  handler _ _ has := Or.inl (by rwa [Bench.nic, hn] at has)

end SameTies

/-- An operation on one card that keeps its hook and installs no handler but
that of a device. -/
theorem OnlyCard.sameTies (ho : OnlyCard m b b') (hk : (b'.nic m).hook = (b.nic m).hook)
    (hh : ∀ as, (b'.nic m).handler = some as → (b.nic m).handler = some as ∨
      ∀ a ∈ as, a.Leaves b s) : SameTies s b b' where
  contexts := by rw [ho.contexts]
  signals := by rw [ho.signals]
  devices := by rw [ho.devices]
  endpoints := by rw [ho.endpoints]
  request k := by rw [ho.context_eq]
  device x := by rw [ho.device_eq]; exact ⟨rfl, rfl⟩
  weight x := by rw [ho.device_eq]
  endpoint _ := by rw [Bench.endpoint, ho.endpoints, Bench.endpoint]; exact ⟨rfl, rfl⟩
  hook i := by
    by_cases hi : i = m
    · rw [hi, hk]
    · rw [ho.nic i hi]
  handler i as has := by
    by_cases hi : i = m
    · subst hi
      exact hh as has
    · rw [ho.nic i hi] at has
      exact Or.inl has

theorem OnlyCard.sameTies_of_control (ho : OnlyCard m b b')
    (hc : (b.nic m).SameControl (b'.nic m)) : SameTies s b b' :=
  ho.sameTies hc.hook fun as has => Or.inl (by rwa [hc.handler] at has)

/-- An interrupt neither brings parts to the bench nor changes what they
hold. -/
theorem Interrupted.sameTies (hi : Interrupted m b b') (hc : b'.contexts.next = b.contexts.next)
    (hs : b'.signals.next = b.signals.next) : SameTies s b b' where
  contexts := hc
  signals := hs
  devices := by rw [hi.devices]
  endpoints := by rw [hi.endpoints]
  request := hi.request
  device _ := by rw [Bench.device, hi.devices, Bench.device]; exact ⟨rfl, rfl⟩
  weight _ := by rw [Bench.device, hi.devices, Bench.device]
  endpoint _ := by rw [Bench.endpoint, hi.endpoints, Bench.endpoint]; exact ⟨rfl, rfl⟩
  hook i := by
    by_cases hm : i = m
    · rw [hm, hi.hook_eq]
    · rw [hi.nic i hm]
  handler i as has := by
    by_cases hm : i = m
    · rw [hm, hi.handler_eq] at has
      exact Or.inl (hm ▸ has)
    · rw [hi.nic i hm] at has
      exact Or.inl has

theorem sameTies_record (b : Bench) (x : Event) : SameTies s b (b.record x) :=
  .of_nics rfl rfl rfl (fun _ => rfl) rfl rfl

theorem sameTies_takeSignal (b : Bench) (t : Handle Signal) : SameTies s b (b.takeSignal t).1 :=
  .of_nics rfl rfl rfl (fun _ => rfl) rfl rfl

theorem sameTies_setPhase (b : Bench) (k : Handle PollContext) (p : PollPhase) :
    SameTies s b (b.setPhase k p) :=
  .of_nics rfl rfl rfl (fun i => request_setPhase b k i p) rfl rfl

theorem sameTies_raise (b : Bench) (t : Handle Signal) : SameTies s b (b.raise t) :=
  .of_nics rfl rfl rfl (fun _ => rfl) rfl rfl

theorem sameTies_request (b : Bench) (k : Handle PollContext) : SameTies s b (b.request k) :=
  .of_nics rfl rfl rfl (request_request b k) rfl rfl

theorem sameTies_act (m : Handle Nic) (b : Bench) (a : HandlerAction) :
    SameTies s b (act m b a) := by
  cases a with
  | raise t => exact sameTies_raise b t
  | arm => exact (interrupted_modifyGate m b true).sameTies rfl rfl
  | disarm => exact (interrupted_modifyGate m b false).sameTies rfl rfl
  | schedule k =>
    by_cases hi : (b.context k).phase = .idle
    · rw [act, schedule_of_idle hi]
      exact sameTies_request b k
    · rw [act, schedule_of_not_idle hi]
      exact .refl b

theorem sameTies_foldl_act (m : Handle Nic) (b : Bench) (as : List HandlerAction) :
    SameTies s b (as.foldl (act m) b) := by
  induction as generalizing b with
  | nil => exact .refl b
  | cons a as ih => exact (sameTies_act m b a).trans (ih _)

theorem sameTies_interrupt (b : Bench) (m : Handle Nic) : SameTies s b (b.interrupt m).1 := by
  unfold interrupt
  split
  · split
    · next as _ => exact (sameTies_record b _).trans (sameTies_foldl_act m _ as)
    · exact .refl b
  · exact .refl b

theorem sameTies_armLine (b : Bench) (m : Handle Nic) : SameTies s b (b.armLine m) :=
  (interrupted_armLine b m).sameTies rfl rfl

theorem sameTies_rearm (b : Bench) (m : Handle Nic) : SameTies s b (b.rearm m) := by
  rw [rearm_eq]
  split
  · exact (sameTies_armLine b m).trans (sameTies_interrupt _ m)
  · exact sameTies_armLine b m

theorem sameTies_countDevice (b : Bench) (x : Handle Device) (f : Counters → Counters) :
    SameTies s b (b.countDevice x f) where
  contexts := rfl
  signals := rfl
  devices := rfl
  endpoints := rfl
  request _ := rfl
  device y := by
    by_cases hy : y = x
    · subst hy
      rw [Bench.device, countDevice, modifyDevice, Store.get_modify_self]
      exact ⟨rfl, rfl⟩
    · rw [Bench.device, countDevice, modifyDevice, Store.get_modify_of_ne _ hy]
      exact ⟨rfl, rfl⟩
  weight y := by
    by_cases hy : y = x
    · subst hy
      rw [Bench.device, countDevice, modifyDevice, Store.get_modify_self]
      rfl
    · rw [Bench.device, countDevice, modifyDevice, Store.get_modify_of_ne _ hy]
      rfl
  endpoint _ := ⟨rfl, rfl⟩
  hook _ := rfl
  handler _ _ := Or.inl

theorem sameTies_setBacklog (b : Bench) (x : Handle Endpoint) (f : List Frame → List Frame) :
    SameTies s b (b.modifyEndpoint x fun y => { y with backlog := f y.backlog }) where
  contexts := rfl
  signals := rfl
  devices := rfl
  endpoints := rfl
  request _ := rfl
  device _ := ⟨rfl, rfl⟩
  weight _ := rfl
  endpoint y := by
    by_cases hy : y = x
    · subst hy
      rw [Bench.endpoint, modifyEndpoint, Store.get_modify_self]
      exact ⟨rfl, rfl⟩
    · rw [Bench.endpoint, modifyEndpoint, Store.get_modify_of_ne _ hy]
      exact ⟨rfl, rfl⟩
  hook _ := rfl
  handler _ _ := Or.inl

/-! ### Operations on one card -/

theorem sameTies_setUp (b : Bench) (m : Handle Nic) : SameTies s b (b.setUp m) := by
  have ho := onlyCard_setUp b m
  by_cases hr : (b.nic m).gate.isReady = true
  · have hx := nic_setUp_of_ready hr
    exact ho.sameTies_of_control (by rw [hx]; exact ⟨rfl, rfl, rfl⟩)
  · have hx := nic_setUp_of_not_ready hr
    exact ho.sameTies_of_control (by rw [hx]; exact ⟨rfl, rfl, rfl⟩)

theorem sameTies_bringUp (b : Bench) (m : Handle Nic) : SameTies s b (b.bringUp m) := by
  have ho := onlyCard_bringUp b m
  by_cases hr : (b.nic m).gate.isReady = true
  · have hx := nic_bringUp_of_ready hr
    exact ho.sameTies (by rw [hx]) fun as has => Or.inl (by rwa [hx] at has)
  · have hx := nic_bringUp_of_not_ready hr
    exact ho.sameTies (by rw [hx]; rfl) fun as has => Or.inl (by rwa [hx] at has)

theorem sameTies_shutDown (b : Bench) (m : Handle Nic) : SameTies s b (b.shutDown m) :=
  (onlyCard_shutDown b m).sameTies (by rw [nic_shutDown])
    fun as has => Or.inl (by rwa [nic_shutDown] at has)

theorem sameTies_tearDown (b : Bench) (m : Handle Nic) : SameTies s b (b.tearDown m).1 :=
  (onlyCard_tearDown b m).sameTies (by rw [nic_tearDown, Nic.hook_emptied])
    fun as has => Or.inl (by rwa [nic_tearDown, Nic.handler_emptied] at has)

theorem sameTies_mask (b : Bench) (m : Handle Nic) : SameTies s b (b.mask m) :=
  (onlyCard_mask b m).sameTies (by rw [nic_mask]) fun as has => Or.inl (by rwa [nic_mask] at has)

theorem sameTies_removeHandler (b : Bench) (m : Handle Nic) : SameTies s b (b.removeHandler m) :=
  (onlyCard_removeHandler b m).sameTies (by rw [nic_removeHandler]) fun as has => by
    rw [nic_removeHandler] at has
    cases has

/-- A handler that leaves the signal to its owner may be installed on any
card. -/
theorem sameTies_installHandler (m : Handle Nic) {as : List HandlerAction}
    (h : ∀ a ∈ as, a.Leaves b s) : SameTies s b (b.installHandler m as) :=
  (onlyCard_installHandler b m as).sameTies (by rw [nic_installHandler]) fun as' has => by
    rw [nic_installHandler] at has
    obtain rfl := Option.some.inj has
    exact Or.inr h

theorem sameTies_take (b : Bench) (m : Handle Nic) (i : Direction) : SameTies s b (b.take m i).1 :=
  (onlyCard_take b m i).sameTies_of_control (b.take_control m i)

theorem sameTies_accept (b : Bench) (m : Handle Nic) (i : Direction) (f : Frame) :
    SameTies s b (b.accept m i f).1 :=
  (onlyCard_accept b m i f).sameTies_of_control (b.accept_control m i f)

theorem sameTies_transmit (b : Bench) (m : Handle Nic) (f : Frame) :
    SameTies s b (b.transmit m f).1 := by
  rcases b.transmit_cases m f with ht | ⟨t, -, ht⟩
  · rw [ht]
    exact sameTies_accept b m .transmit f
  · rw [ht]
    exact (sameTies_accept b m .transmit f).trans (sameTies_raise _ t)

theorem sameTies_deliver (b : Bench) (m : Handle Nic) (f : Frame) :
    SameTies s b (b.deliver m f).1 := by
  have ha : SameTies s b (b.accept m .receive f).1 := sameTies_accept b m .receive f
  rcases b.deliver_cases m f with ⟨-, hd, -⟩ | ⟨-, -, x, e, hd⟩
  · rw [hd]
    exact ha
  · have hi := ha.trans (sameTies_interrupt _ m)
    rw [hd]
    cases x
    · exact hi
    · exact hi.trans (sameTies_record _ e)

theorem sameTies_cardStep (m : Handle Nic) (b : Bench) (op : CardOp) :
    SameTies s b (cardStep m b op) := by
  cases op with
  | setUp => exact sameTies_setUp b m
  | bringUp => exact sameTies_bringUp b m
  | shutDown => exact sameTies_shutDown b m
  | tearDown => exact sameTies_tearDown b m
  | rearm => exact sameTies_rearm b m
  | mask => exact sameTies_mask b m
  | removeHandler => exact sameTies_removeHandler b m
  | transmit f => exact sameTies_transmit b m f
  | deliver f => exact sameTies_deliver b m f
  | take i => exact sameTies_take b m i

theorem sameTies_send (b : Bench) (x : Handle Device) (f : Frame) :
    SameTies s b (b.send x f).1 := by
  have pass : ∀ y g, SameTies s b (((b.record y).transmit (b.device x).nic f).1.countDevice x g) :=
    fun y g => ((sameTies_record b y).trans (sameTies_transmit _ _ f)).trans
      (sameTies_countDevice _ x g)
  rcases send_cases (rfl : (b.device x).nic = _) f with
    ⟨-, y, z, hs⟩ | ⟨-, y, ⟨-, hs⟩ | ⟨r, -, hs⟩⟩
  · rw [hs]
    exact ((sameTies_record b y).trans (sameTies_record _ z)).trans (sameTies_countDevice _ x _)
  · rw [hs]
    exact pass y (·.sent f.length)
  · rw [hs]
    exact pass y Counters.sendDropped

/-! ## Quiet operations -/

/-- An operation that raises no signal, leaves every backlog alone, and moves no
context but one. -/
structure Quiet (s : Handle Signal) (k : Handle PollContext) (b b' : Bench) : Prop where
  ties : SameTies s b b'
  signals : b'.signals = b.signals
  endpoints : b'.endpoints = b.endpoints
  context : ∀ c, c ≠ k → b'.context c = b.context c

namespace Quiet

theorem refl (b : Bench) : Quiet s k b b :=
  ⟨.refl b, rfl, rfl, fun _ _ => rfl⟩

theorem trans (h : Quiet s k b b') (g : Quiet s k b' b'') : Quiet s k b b'' where
  ties := h.ties.trans g.ties
  signals := g.signals.trans h.signals
  endpoints := g.endpoints.trans h.endpoints
  context c hc := (g.context c hc).trans (h.context c hc)

theorem of_contexts (ht : SameTies s b b') (hs : b'.signals = b.signals)
    (he : b'.endpoints = b.endpoints) (hc : b'.contexts = b.contexts) : Quiet s k b b' :=
  ⟨ht, hs, he, fun c _ => by rw [Bench.context, hc, Bench.context]⟩

theorem onlyCard (h : Quiet s k b b') (ho : OnlyCard m b' b'') (ht : SameTies s b' b'') :
    Quiet s k b b'' :=
  h.trans (of_contexts ht ho.signals ho.endpoints ho.contexts)

theorem record (h : Quiet s k b b') (x : Event) : Quiet s k b (b'.record x) :=
  h.trans (of_contexts (sameTies_record b' x) rfl rfl rfl)

theorem recordIf (h : Quiet s k b b') (p : Bool) (x : Event) : Quiet s k b (b'.recordIf p x) := by
  cases p
  · exact h
  · exact h.record x

theorem setPhase (h : Quiet s k b b') (p : PollPhase) : Quiet s k b (b'.setPhase k p) :=
  h.trans ⟨sameTies_setPhase b' k p, rfl, rfl, fun _ hc => context_setPhase_of_ne hc b' p⟩

theorem countDevice (h : Quiet s k b b') (x : Handle Device) (f : Counters → Counters) :
    Quiet s k b (b'.countDevice x f) :=
  h.trans (of_contexts (sameTies_countDevice b' x f) rfl rfl rfl)

theorem signal_eq (h : Quiet s k b b') (t : Handle Signal) : b'.signal t = b.signal t := by
  rw [Bench.signal, h.signals, Bench.signal]

end Quiet

theorem quiet_enableContext (b : Bench) (k : Handle PollContext) :
    Quiet s k b (b.enableContext k) := by
  by_cases h : (b.context k).phase = .disabled
  · rw [enableContext_of_disabled h]
    exact (Quiet.refl b).setPhase _
  · rw [enableContext_of_enabled h]
    exact (Quiet.refl b).record _

theorem quiet_disableContext (b : Bench) (k : Handle PollContext) :
    Quiet s k b (b.disableContext k).1 := by
  unfold disableContext
  split
  · exact .refl b
  · exact ((Quiet.refl b).setPhase _).record _
  · exact (Quiet.refl b).setPhase _

/-- Opening a device: the handler that it installs asks its own context. -/
theorem quiet_openDevice {x : Handle Device} (hx : b.contexts.Has (b.device x).context) :
    Quiet s (b.device x).context b (b.openDevice x) := by
  have h₁ : Quiet s (b.device x).context b
      (((b.recordDevice x .opened).setUp (b.device x).nic).enableContext (b.device x).context) :=
    (((Quiet.refl b).record _).onlyCard (onlyCard_setUp _ _) (sameTies_setUp _ _)).trans
      (quiet_enableContext _ _)
  have has : ∀ a ∈ (b.device x).handler, a.Leaves (((b.recordDevice x .opened).setUp
      (b.device x).nic).enableContext (b.device x).context) s := by
    intro a ha
    rw [h₁.ties.leaves_iff]
    rcases List.mem_cons.mp ha with rfl | ha
    · trivial
    · rw [List.mem_singleton.mp ha]
      exact hx
  exact (h₁.onlyCard (onlyCard_installHandler _ _ _) (sameTies_installHandler _ has)).onlyCard
    (onlyCard_bringUp _ _) (sameTies_bringUp _ _)

theorem quiet_closeDevice (b : Bench) (x : Handle Device) :
    Quiet s (b.device x).context b (b.closeDevice x).1 := by
  have h₁ : Quiet s (b.device x).context b (((b.recordDevice x .closed).shutDown
      (b.device x).nic).removeHandler (b.device x).nic) :=
    (((Quiet.refl b).record _).onlyCard (onlyCard_shutDown _ _) (sameTies_shutDown _ _)).onlyCard
      (onlyCard_removeHandler _ _) (sameTies_removeHandler _ _)
  have h₂ := h₁.trans (quiet_disableContext _ (b.device x).context)
  unfold closeDevice
  dsimp only
  split
  · next b' f hb =>
    rw [hb] at h₂
    exact h₂
  · next b' hb =>
    rw [hb] at h₂
    have h₃ := h₂.onlyCard (onlyCard_tearDown b' (b.device x).nic) (sameTies_tearDown _ _)
    dsimp only
    exact (h₃.recordIf _ _).countDevice x _

/-! ## What an endpoint owns -/

/-- An endpoint drives a device, and takes the signal by which the device asks
for passes. -/
structure Serving (e : Handle Endpoint) (d : Handle Device) (n : Handle Nic)
    (c : Handle PollContext) (s : Handle Signal) (b : Bench) : Prop extends Attached d n c s b where
  device_eq : (b.endpoint e).device = d
  signal_eq : (b.endpoint e).request = s

/-- **What an endpoint owns.**  All of it is on the bench, so nothing new can be
mistaken for it.  No other endpoint has the device or the signal, no other device
the context, no other context the signal, and neither hooks nor handlers raise
it. -/
structure Owned (e : Handle Endpoint) (d : Handle Device) (n : Handle Nic)
    (c : Handle PollContext) (s : Handle Signal) (b : Bench) : Prop
    extends Serving e d n c s b where
  has_endpoint : b.endpoints.Has e
  has_device : b.devices.Has d
  has_context : b.contexts.Has c
  has_signal : b.signals.Has s
  contexts : ∀ k, b.contexts.Has k → k ≠ c → (b.context k).request ≠ s
  devices : ∀ x, b.devices.Has x →
    b.contexts.Has (b.device x).context ∧ (x ≠ d → (b.device x).context ≠ c)
  endpoints : ∀ x, b.endpoints.Has x → b.devices.Has (b.endpoint x).device ∧
    (x ≠ e → (b.endpoint x).device ≠ d ∧ (b.endpoint x).request ≠ s)
  hook : ∀ m, (b.nic m).hook ≠ some s
  handler : ∀ m as, (b.nic m).handler = some as → ∀ a ∈ as, a.Leaves b s

theorem SameTies.attached (h : SameTies t b b') (g : Attached d n c s b) :
    Attached d n c s b' where
  nic_eq := (h.device d).1.trans g.nic_eq
  context_eq := (h.device d).2.trans g.context_eq
  request_eq := (h.request c).trans g.request_eq

theorem SameTies.serving (h : SameTies t b b') (g : Serving e d n c s b) :
    Serving e d n c s b' where
  toAttached := h.attached g.toAttached
  device_eq := (h.endpoint e).1.trans g.device_eq
  signal_eq := (h.endpoint e).2.trans g.signal_eq

theorem Owned.transfer (h : Owned e d n c s b) (ht : SameTies s b b') : Owned e d n c s b' where
  toServing := ht.serving h.toServing
  has_endpoint := by rw [Store.Has, ht.endpoints]; exact h.has_endpoint
  has_device := by rw [Store.Has, ht.devices]; exact h.has_device
  has_context := ht.has_context.mpr h.has_context
  has_signal := by rw [Store.Has, ht.signals]; exact h.has_signal
  contexts k hk hne := by
    rw [ht.request]
    exact h.contexts k (ht.has_context.mp hk) hne
  devices x hx := by
    rw [(ht.device x).2, ht.has_context]
    exact h.devices x (by rwa [Store.Has, ← ht.devices])
  endpoints x hx := by
    rw [(ht.endpoint x).1, (ht.endpoint x).2, Store.Has, ht.devices]
    exact h.endpoints x (by rwa [Store.Has, ← ht.endpoints])
  hook m := by
    rw [ht.hook]
    exact h.hook m
  handler m as has a ha := by
    rw [ht.leaves_iff]
    rcases ht.handler m as has with has | has
    · exact h.handler m as has a ha
    · exact has a ha

/-! ## What others do -/

/-- What others may do to a context and its signal: nothing, or ask the idle
context for a pass. -/
def Nudged (c : Handle PollContext) (s : Handle Signal) (b b' : Bench) : Prop :=
  ((b'.context c).phase = (b.context c).phase ∧ b'.signal s = b.signal s) ∨
    ((b.context c).phase = .idle ∧ (b'.context c).phase = .scheduled ∧
      (b'.signal s).isPending = true)

/-- Something is done that is not the owner's doing.  Nobody else looks into its
backlog. -/
structure Aside (e : Handle Endpoint) (c : Handle PollContext) (s : Handle Signal)
    (b b' : Bench) : Prop where
  ties : SameTies s b b'
  nudged : Nudged c s b b'
  backlog : (b'.endpoint e).backlog = (b.endpoint e).backlog

namespace Aside

theorem of_eq (ht : SameTies s b b') (hc : b'.context c = b.context c)
    (hs : b'.signal s = b.signal s)
    (he : (b'.endpoint e).backlog = (b.endpoint e).backlog) : Aside e c s b b' :=
  ⟨ht, Or.inl ⟨by rw [hc], hs⟩, he⟩

theorem refl (b : Bench) : Aside e c s b b :=
  .of_eq (.refl b) rfl rfl rfl

theorem trans (h : Aside e c s b b') (g : Aside e c s b' b'') : Aside e c s b b'' where
  ties := h.ties.trans g.ties
  nudged := by
    rcases h.nudged with ⟨hp, hs⟩ | ⟨hi, hp, hs⟩
    · rcases g.nudged with ⟨hp', hs'⟩ | ⟨hi', hp', hs'⟩
      · exact Or.inl ⟨hp'.trans hp, hs'.trans hs⟩
      · exact Or.inr ⟨hp.symm.trans hi', hp', hs'⟩
    · rcases g.nudged with ⟨hp', hs'⟩ | ⟨hi', -, -⟩
      · exact Or.inr ⟨hi, hp'.trans hp, by rw [hs', hs]⟩
      · -- A context that was asked is not idle, so it is not asked again.
        exact absurd (hp.symm.trans hi') (by decide)
  backlog := g.backlog.trans h.backlog

theorem onlyCard (h : Aside e c s b b') (ho : OnlyCard m b' b'') (ht : SameTies s b' b'') :
    Aside e c s b b'' :=
  h.trans (.of_eq ht (ho.context_eq c) (ho.signal_eq s) (by
    rw [endpoint, ho.endpoints, ← endpoint]))

theorem record (h : Aside e c s b b') (x : Event) : Aside e c s b (b'.record x) :=
  h.trans (.of_eq (sameTies_record b' x) rfl rfl rfl)

theorem recordIf (h : Aside e c s b b') (p : Bool) (x : Event) :
    Aside e c s b (b'.recordIf p x) := by
  cases p
  · exact h
  · exact h.record x

end Aside

theorem Quiet.aside (h : Quiet s k b b') (hk : c ≠ k) : Aside e c s b b' :=
  .of_eq h.ties (h.context c hk) (h.signal_eq s) (by rw [endpoint, h.endpoints, ← endpoint])

theorem aside_raise (b : Bench) (ht : t ≠ s) : Aside e c s b (b.raise t) :=
  .of_eq (sameTies_raise b t) rfl (signal_raise_of_ne ht.symm b) rfl

theorem aside_takeSignal (b : Bench) (ht : t ≠ s) : Aside e c s b (b.takeSignal t).1 :=
  .of_eq (sameTies_takeSignal b t) rfl (b.signals.get_modify_of_ne ht.symm _) rfl

section Others

variable (h : Owned e d n c s b)

include h

theorem Owned.aside_request (hk : b.contexts.Has k) (hne : k ≠ c) : Aside e c s b (b.request k) :=
  .of_eq (sameTies_request b k) (context_request_of_ne hne.symm b)
    (signal_request_of_ne (h.contexts k hk hne).symm) rfl

theorem Owned.aside_act (m : Handle Nic) {a : HandlerAction} (ha : a.Leaves b s) :
    Aside e c s b (act m b a) := by
  cases a with
  | raise t => exact aside_raise b ha
  | arm => exact .of_eq (sameTies_act m b .arm) rfl rfl rfl
  | disarm => exact .of_eq (sameTies_act m b .disarm) rfl rfl rfl
  | schedule k =>
    by_cases hi : (b.context k).phase = .idle
    · rw [act, schedule_of_idle hi]
      by_cases hk : k = c
      · subst hk
        have hs := b.isPending_request k
        rw [h.request_eq] at hs
        exact ⟨sameTies_request b k, Or.inr ⟨hi, phase_request b k, hs⟩, rfl⟩
      · exact h.aside_request ha hk
    · rw [act, schedule_of_not_idle hi]
      exact .refl b

omit h in
theorem Owned.aside_foldl_act (h : Owned e d n c s b) (m : Handle Nic) {as : List HandlerAction}
    (has : ∀ a ∈ as, a.Leaves b s) : Aside e c s b (as.foldl (act m) b) := by
  induction as generalizing b with
  | nil => exact .refl b
  | cons a as ih =>
    have ha := h.aside_act m (has a List.mem_cons_self)
    refine ha.trans (ih (h.transfer ha.ties) fun a' ha' => ?_)
    rw [ha.ties.leaves_iff]
    exact has a' (List.mem_cons_of_mem _ ha')

theorem Owned.aside_interrupt (m : Handle Nic) : Aside e c s b (b.interrupt m).1 := by
  unfold interrupt
  split
  · split
    · next as has =>
      have hr : Aside e c s b (b.record (.nic m (.notified as))) := (Aside.refl b).record _
      refine hr.trans ((h.transfer hr.ties).aside_foldl_act m fun a ha => ?_)
      exact h.handler m as has a ha
    · exact .refl b
  · exact .refl b

theorem Owned.aside_rearm (m : Handle Nic) : Aside e c s b (b.rearm m) := by
  have ha : Aside e c s b (b.armLine m) := .of_eq (sameTies_armLine b m) rfl rfl rfl
  rw [rearm_eq]
  split
  · exact ha.trans ((h.transfer ha.ties).aside_interrupt m)
  · exact ha

theorem Owned.aside_deliver (m : Handle Nic) (f : Frame) : Aside e c s b (b.deliver m f).1 := by
  have ha : Aside e c s b (b.accept m .receive f).1 :=
    (Aside.refl b).onlyCard (onlyCard_accept b m .receive f) (sameTies_accept b m .receive f)
  rcases b.deliver_cases m f with ⟨-, hd, -⟩ | ⟨-, -, p, x, hd⟩
  · rw [hd]
    exact ha
  · rw [hd]
    exact (ha.trans ((h.transfer ha.ties).aside_interrupt m)).recordIf p x

theorem Owned.aside_transmit (m : Handle Nic) (f : Frame) : Aside e c s b (b.transmit m f).1 := by
  have ha : Aside e c s b (b.accept m .transmit f).1 :=
    (Aside.refl b).onlyCard (onlyCard_accept b m .transmit f) (sameTies_accept b m .transmit f)
  rcases b.transmit_cases m f with ht | ⟨t, hk, ht⟩
  · rw [ht]
    exact ha
  · rw [ht]
    exact ha.trans (aside_raise _ fun hts => h.hook m (hts ▸ hk))

/-- Sending through any device is not the owner's doing: the frame only passes
through the card. -/
theorem Owned.aside_send (x : Handle Device) (f : Frame) : Aside e c s b (b.send x f).1 := by
  have count : ∀ b' g, Aside e c s b b' → Aside e c s b (b'.countDevice x g) := fun b' g ha =>
    ha.trans (.of_eq (sameTies_countDevice b' x g) rfl rfl rfl)
  have pass : ∀ y, Aside e c s b ((b.record y).transmit (b.device x).nic f).1 := fun y =>
    ((Aside.refl b).record y).trans
      ((h.transfer (sameTies_record b y)).aside_transmit (b.device x).nic f)
  rcases send_cases (rfl : (b.device x).nic = _) f with
    ⟨-, y, z, hs⟩ | ⟨-, y, ⟨-, hs⟩ | ⟨r, -, hs⟩⟩
  · rw [hs]
    exact count _ _ (((Aside.refl b).record y).record z)
  · rw [hs]
    exact count _ (·.sent f.length) (pass y)
  · rw [hs]
    exact count _ Counters.sendDropped (pass y)

end Others

/-! ## New endpoints -/

/-- What a new endpoint brings to a bench: a signal, a context that asks by it, a
device that has the context, and itself.  Nothing else changes. -/
structure Joins (x : Settings) (e : Handle Endpoint) (d : Handle Device) (n : Handle Nic)
    (c : Handle PollContext) (s : Handle Signal) (b b' : Bench) : Prop where
  nics : b'.nics = b.nics
  peers : b'.peers = b.peers
  signals : b.signals.add (.flag false) = (s, b'.signals)
  contexts : b.contexts.add { request := s } = (c, b'.contexts)
  devices : b.devices.add ⟨x.name, x.address, n, c, x.weight, {}⟩ = (d, b'.devices)
  endpoints : b.endpoints.add { device := d, request := s } = (e, b'.endpoints)

theorem joins_of_addEndpoint {x : Settings} (h : b.addEndpoint x n = (e, b')) :
    ∃ d c s, Joins x e d n c s b b' := by
  obtain ⟨rfl, rfl⟩ := Prod.mk.inj h
  exact ⟨_, _, _, rfl, rfl, rfl, rfl, rfl, rfl⟩

/-- No part of a bench refers to one that is yet to come. -/
structure Closed (b : Bench) : Prop where
  contexts : ∀ k, b.contexts.Has k → b.signals.Has (b.context k).request
  devices : ∀ x, b.devices.Has x → b.contexts.Has (b.device x).context
  endpoints : ∀ x, b.endpoints.Has x →
    b.devices.Has (b.endpoint x).device ∧ b.signals.Has (b.endpoint x).request
  hook : ∀ m t, (b.nic m).hook = some t → b.signals.Has t
  handler : ∀ m as, (b.nic m).handler = some as → ∀ a ∈ as, a.Known b

/-- On an empty bench nothing refers to anything. -/
theorem closed_default : Closed default where
  contexts _ hk := absurd hk (Nat.not_lt_zero _)
  devices _ hx := absurd hx (Nat.not_lt_zero _)
  endpoints _ hx := absurd hx (Nat.not_lt_zero _)
  hook _ _ ht := nomatch ht
  handler _ _ has := nomatch has

namespace Closed

/-- A new card on which nothing is installed. -/
theorem addNic {x : Nic} (h : b.Closed) (hx : b.addNic x = (n, b')) (hk : x.hook = none)
    (hh : x.handler = none) : b'.Closed := by
  have hn : ∀ m, m ≠ n → b'.nic m = b.nic m := by
    obtain ⟨rfl, rfl⟩ := Prod.mk.inj hx
    exact fun m hm => b.nics.get_add_of_ne x hm
  have hnew := nic_of_addNic hx
  obtain ⟨-, rfl⟩ := Prod.mk.inj hx
  refine ⟨h.contexts, h.devices, h.endpoints, fun m t ht => ?_, fun m as has => ?_⟩
  · by_cases hm : m = n
    · rw [hm, hnew, hk] at ht
      cases ht
    · rw [hn m hm] at ht
      exact h.hook m t ht
  · by_cases hm : m = n
    · rw [hm, hnew, hh] at has
      cases has
    · rw [hn m hm] at has
      exact h.handler m as has

/-- What changes no ties, whosever signal one asks about, brings no reference to
anything new. -/
theorem of_sameTies (h : b.Closed) (ht : ∀ s, SameTies s b b') : b'.Closed where
  contexts k hk := by
    rw [(ht ⟨0⟩).request, Store.Has, (ht ⟨0⟩).signals]
    exact h.contexts k ((ht ⟨0⟩).has_context.mp hk)
  devices x hx := by
    rw [((ht ⟨0⟩).device x).2, (ht ⟨0⟩).has_context]
    exact h.devices x (by rwa [Store.Has, ← (ht ⟨0⟩).devices])
  endpoints x hx := by
    rw [((ht ⟨0⟩).endpoint x).1, ((ht ⟨0⟩).endpoint x).2, Store.Has, Store.Has, (ht ⟨0⟩).devices,
      (ht ⟨0⟩).signals]
    exact h.endpoints x (by rwa [Store.Has, ← (ht ⟨0⟩).endpoints])
  hook m t hk := by
    rw [(ht ⟨0⟩).hook] at hk
    rw [Store.Has, (ht ⟨0⟩).signals]
    exact h.hook m t hk
  handler m as has a ha := by
    cases a with
    | raise t =>
      -- A new handler would leave `t` alone, and this one does not.
      rcases (ht t).handler m as has with hold | hnew
      · have hk : b.signals.Has t := h.handler m as hold _ ha
        rwa [Store.Has, ← (ht t).signals] at hk
      · exact absurd rfl (hnew _ ha)
    | arm => trivial
    | disarm => trivial
    | schedule k =>
      refine (ht ⟨0⟩).has_context.mpr ?_
      rcases (ht ⟨0⟩).handler m as has with hold | hnew
      · exact h.handler m as hold _ ha
      · exact hnew _ ha

end Closed

namespace Joins

variable {x : Settings}

theorem nic_eq (h : Joins x e d n c s b b') (m : Handle Nic) : b'.nic m = b.nic m := by
  rw [Bench.nic, h.nics, Bench.nic]

/-- A new endpoint is down: its context is disabled, nothing is pending, and its
backlog is empty. -/
theorem fresh (h : Joins x e d n c s b b') : (b'.context c).phase = .disabled ∧
    b'.signal s = .flag false ∧ (b'.endpoint e).backlog = [] ∧ (b'.device d).weight = x.weight := by
  refine ⟨?_, Store.get_of_add h.signals, ?_, ?_⟩
  · exact congrArg PollContext.phase (Store.get_of_add h.contexts)
  · exact congrArg Endpoint.backlog (Store.get_of_add h.endpoints)
  · exact congrArg Device.weight (Store.get_of_add h.devices)

theorem serving (h : Joins x e d n c s b b') : Serving e d n c s b' where
  nic_eq := congrArg Device.nic (Store.get_of_add h.devices)
  context_eq := congrArg Device.context (Store.get_of_add h.devices)
  request_eq := congrArg PollContext.request (Store.get_of_add h.contexts)
  device_eq := congrArg Endpoint.device (Store.get_of_add h.endpoints)
  signal_eq := congrArg Endpoint.request (Store.get_of_add h.endpoints)

/-- On a closed bench, a new endpoint owns what it brings. -/
theorem owned (h : Joins x e d n c s b b') (hb : b.Closed) : Owned e d n c s b' where
  toServing := h.serving
  has_endpoint := Store.has_of_add h.endpoints
  has_device := Store.has_of_add h.devices
  has_context := Store.has_of_add h.contexts
  has_signal := Store.has_of_add h.signals
  contexts k hk hne := by
    have hk := (Store.has_cases_of_add hk h.contexts).resolve_right hne
    rw [Bench.context, hk.get_of_add h.contexts]
    exact (hb.contexts k hk).ne_of_add h.signals
  devices y hy := by
    rcases Store.has_cases_of_add hy h.devices with hy | rfl
    · rw [Bench.device, hy.get_of_add h.devices]
      exact ⟨(hb.devices y hy).add h.contexts, fun _ => (hb.devices y hy).ne_of_add h.contexts⟩
    · rw [h.serving.context_eq]
      exact ⟨Store.has_of_add h.contexts, fun hne => absurd rfl hne⟩
  endpoints y hy := by
    rcases Store.has_cases_of_add hy h.endpoints with hy | rfl
    · obtain ⟨hd, hs⟩ := hb.endpoints y hy
      rw [Bench.endpoint, hy.get_of_add h.endpoints]
      exact ⟨hd.add h.devices, fun _ => ⟨hd.ne_of_add h.devices, hs.ne_of_add h.signals⟩⟩
    · rw [h.serving.device_eq]
      exact ⟨Store.has_of_add h.devices, fun hne => absurd rfl hne⟩
  hook m := by
    rw [h.nic_eq]
    intro hs
    exact (hb.hook m s hs).ne_of_add h.signals rfl
  handler m as has a ha := by
    rw [h.nic_eq] at has
    cases a with
    | raise t => exact (hb.handler m as has _ ha : b.signals.Has t).ne_of_add h.signals
    | arm => trivial
    | disarm => trivial
    | schedule k => exact (hb.handler m as has _ ha : b.contexts.Has k).add h.contexts

theorem closed (h : Joins x e d n c s b b') (hb : b.Closed) : b'.Closed where
  contexts k hk := by
    rcases Store.has_cases_of_add hk h.contexts with hk | rfl
    · rw [Bench.context, hk.get_of_add h.contexts]
      exact (hb.contexts k hk).add h.signals
    · rw [h.serving.request_eq]
      exact Store.has_of_add h.signals
  devices y hy := ((h.owned hb).devices y hy).1
  endpoints y hy := by
    refine ⟨((h.owned hb).endpoints y hy).1, ?_⟩
    rcases Store.has_cases_of_add hy h.endpoints with hy | rfl
    · rw [Bench.endpoint, hy.get_of_add h.endpoints]
      exact (hb.endpoints y hy).2.add h.signals
    · rw [h.serving.signal_eq]
      exact Store.has_of_add h.signals
  hook m t ht := by
    rw [h.nic_eq] at ht
    exact (hb.hook m t ht).add h.signals
  handler m as has a ha := by
    rw [h.nic_eq] at has
    cases a with
    | raise t => exact (hb.handler m as has _ ha : b.signals.Has t).add h.signals
    | arm => trivial
    | disarm => trivial
    | schedule k => exact (hb.handler m as has _ ha : b.contexts.Has k).add h.contexts

end Joins

/-- A new endpoint takes nothing from one that is there. -/
theorem Owned.joins {x : Settings} {e' : Handle Endpoint} {d' : Handle Device} {m : Handle Nic}
    {c' : Handle PollContext} {s' : Handle Signal} (h : Owned e d n c s b)
    (hj : Joins x e' d' m c' s' b b') :
    Owned e d n c s b' ∧ b'.context c = b.context c ∧ b'.signal s = b.signal s ∧
      b'.endpoint e = b.endpoint e := by
  have hc : b'.context c = b.context c := h.has_context.get_of_add hj.contexts
  have hs : b'.signal s = b.signal s := h.has_signal.get_of_add hj.signals
  have hd : b'.device d = b.device d := h.has_device.get_of_add hj.devices
  have he : b'.endpoint e = b.endpoint e := h.has_endpoint.get_of_add hj.endpoints
  refine ⟨?_, hc, hs, he⟩
  exact {
    nic_eq := by rw [hd, h.nic_eq]
    context_eq := by rw [hd, h.context_eq]
    request_eq := by rw [hc, h.request_eq]
    device_eq := by rw [he, h.device_eq]
    signal_eq := by rw [he, h.signal_eq]
    has_endpoint := h.has_endpoint.add hj.endpoints
    has_device := h.has_device.add hj.devices
    has_context := h.has_context.add hj.contexts
    has_signal := h.has_signal.add hj.signals
    contexts := fun k hk hne => by
      rcases Store.has_cases_of_add hk hj.contexts with hk | rfl
      · rw [Bench.context, hk.get_of_add hj.contexts]
        exact h.contexts k hk hne
      · rw [hj.serving.request_eq]
        exact (h.has_signal.ne_of_add hj.signals).symm
    devices := fun y hy => by
      rcases Store.has_cases_of_add hy hj.devices with hy | rfl
      · rw [Bench.device, hy.get_of_add hj.devices]
        exact (h.devices y hy).imp_left fun hk => hk.add hj.contexts
      · rw [hj.serving.context_eq]
        exact ⟨Store.has_of_add hj.contexts, fun _ => (h.has_context.ne_of_add hj.contexts).symm⟩
    endpoints := fun y hy => by
      rcases Store.has_cases_of_add hy hj.endpoints with hy | rfl
      · rw [Bench.endpoint, hy.get_of_add hj.endpoints]
        exact (h.endpoints y hy).imp_left fun hk => hk.add hj.devices
      · rw [hj.serving.device_eq, hj.serving.signal_eq]
        exact ⟨Store.has_of_add hj.devices, fun _ =>
          ⟨(h.has_device.ne_of_add hj.devices).symm, (h.has_signal.ne_of_add hj.signals).symm⟩⟩
    hook := fun m => by
      rw [hj.nic_eq]
      exact h.hook m
    handler := fun m as has a ha => by
      rw [hj.nic_eq] at has
      have hl := h.handler m as has a ha
      cases a with
      | raise t => exact hl
      | arm => trivial
      | disarm => trivial
      | schedule k => exact (hl : b.contexts.Has k).add hj.contexts }

end Bench
end SoftNic
