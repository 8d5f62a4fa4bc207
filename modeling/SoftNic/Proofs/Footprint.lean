import SoftNic.Bench.Interface

/-! # What an operation leaves alone

An operation on a card changes that card and writes into the journal; nothing
else on the bench moves (`Bench.OnlyCard`).  Two things reach further.  An
interrupt runs a handler, which may raise signals and ask contexts for passes
but leaves every card as it is, apart from the interrupt line of its own
(`Bench.Interrupted`).  A transfer runs a sink, and what that may do is up to
the sink.  The sink matters only through the calls that are really made, each on the
bench that the calls before it have left (`Bench.Hands`): `pump_of_hands` says what
survives a transfer.

What an operation does to its own card is an equation between cards, one for
each operation, so that nothing below this module has to be unfolded again.  `CardOp`
lists the operations, for those who tell whole runs.
-/
namespace SoftNic

/-- The gate of a card that was shut down. -/
def Gate.shut (g : Gate) : Gate :=
  ⟨if g.isReady then .shuttingDown else g.phase, false⟩

@[simp] theorem Gate.isReady_shut (g : Gate) : g.shut.isReady = false := by
  obtain ⟨phase, armed⟩ := g
  cases phase <;> rfl

/-- What is done with a card. -/
inductive CardOp
  | setUp
  | bringUp
  | shutDown
  | tearDown
  | rearm
  | mask
  | removeHandler
  | transmit (f : Frame)
  | deliver (f : Frame)
  | take (i : Direction)
  deriving DecidableEq

namespace Nic

/-- The card with both rings rewound and empty. -/
def emptied (x : Nic) : Nic :=
  { x with tx := x.tx.reset.2, rx := x.rx.reset.2 }

@[simp] theorem toList_ring_emptied (x : Nic) (d : Direction) : (x.emptied.ring d).toList = [] := by
  cases d
  · exact x.tx.toList_reset
  · exact x.rx.toList_reset

@[simp] theorem emptied_emptied (x : Nic) : x.emptied.emptied = x.emptied := by
  simp only [emptied, Ring.reset_reset]

@[simp] theorem gate_emptied (x : Nic) : x.emptied.gate = x.gate := rfl
@[simp] theorem handler_emptied (x : Nic) : x.emptied.handler = x.handler := rfl
@[simp] theorem hook_emptied (x : Nic) : x.emptied.hook = x.hook := rfl

@[simp] theorem ring_countAccepted (x : Nic) (d e : Direction) (k : Nat) :
    (x.countAccepted d k).ring e = x.ring e := by
  cases d <;> cases e <;> rfl

@[simp] theorem ring_countRefused (x : Nic) (d e : Direction) :
    (x.countRefused d).ring e = x.ring e := by
  cases d <;> cases e <;> rfl

/-- Apart from its rings and counters, a card is the same as another. -/
structure SameControl (x y : Nic) : Prop where
  gate : y.gate = x.gate
  handler : y.handler = x.handler
  hook : y.hook = x.hook

theorem sameControl_setRing (x : Nic) (d : Direction) (r : Ring Frame) :
    x.SameControl (x.setRing d r) := by
  cases d <;> exact ⟨rfl, rfl, rfl⟩

theorem sameControl_countAccepted (x : Nic) (d : Direction) (k : Nat) :
    x.SameControl (x.countAccepted d k) := by
  cases d <;> exact ⟨rfl, rfl, rfl⟩

theorem sameControl_countRefused (x : Nic) (d : Direction) :
    x.SameControl (x.countRefused d) := by
  cases d <;> exact ⟨rfl, rfl, rfl⟩

theorem SameControl.trans {x y z : Nic} (h : x.SameControl y) (k : y.SameControl z) :
    x.SameControl z :=
  ⟨k.gate.trans h.gate, k.handler.trans h.handler, k.hook.trans h.hook⟩

end Nic

namespace Bench

variable {n : Handle Nic} {b b' b'' : Bench}

/-- Do something with a card. -/
def cardStep (n : Handle Nic) (b : Bench) : CardOp → Bench
  | .setUp => b.setUp n
  | .bringUp => b.bringUp n
  | .shutDown => b.shutDown n
  | .tearDown => (b.tearDown n).1
  | .rearm => b.rearm n
  | .mask => b.mask n
  | .removeHandler => b.removeHandler n
  | .transmit f => (b.transmit n f).1
  | .deliver f => (b.deliver n f).1
  | .take i => (b.take n i).1

/-! ## Only one card changes -/

/-- Nothing differs between two benches but one card and the journal. -/
structure OnlyCard (n : Handle Nic) (b b' : Bench) : Prop where
  nic : ∀ m, m ≠ n → b'.nic m = b.nic m
  contexts : b'.contexts = b.contexts
  signals : b'.signals = b.signals
  devices : b'.devices = b.devices
  peers : b'.peers = b.peers
  endpoints : b'.endpoints = b.endpoints

namespace OnlyCard

theorem refl (n : Handle Nic) (b : Bench) : OnlyCard n b b :=
  ⟨fun _ _ => rfl, rfl, rfl, rfl, rfl, rfl⟩

theorem trans (h : OnlyCard n b b') (k : OnlyCard n b' b'') : OnlyCard n b b'' where
  nic m hm := (k.nic m hm).trans (h.nic m hm)
  contexts := k.contexts.trans h.contexts
  signals := k.signals.trans h.signals
  devices := k.devices.trans h.devices
  peers := k.peers.trans h.peers
  endpoints := k.endpoints.trans h.endpoints

theorem modifyNic (h : OnlyCard n b b') (f : Nic → Nic) : OnlyCard n b (b'.modifyNic n f) :=
  h.trans ⟨fun _ hm => b'.nic_modifyNic_of_ne hm f, rfl, rfl, rfl, rfl, rfl⟩

theorem record (h : OnlyCard n b b') (e : Event) : OnlyCard n b (b'.record e) :=
  h.trans ⟨fun _ _ => rfl, rfl, rfl, rfl, rfl, rfl⟩

theorem recordIf (h : OnlyCard n b b') (p : Bool) (e : Event) :
    OnlyCard n b (b'.recordIf p e) := by
  cases p
  · exact h
  · exact h.record e

theorem context_eq (h : OnlyCard n b b') (c : Handle PollContext) : b'.context c = b.context c := by
  rw [context, h.contexts, context]

theorem signal_eq (h : OnlyCard n b b') (s : Handle Signal) : b'.signal s = b.signal s := by
  rw [signal, h.signals, signal]

theorem device_eq (h : OnlyCard n b b') (d : Handle Device) : b'.device d = b.device d := by
  rw [device, h.devices, device]

end OnlyCard

@[simp] theorem nic_recordIf (b : Bench) (p : Bool) (e : Event) (m : Handle Nic) :
    (b.recordIf p e).nic m = b.nic m := by
  cases p <;> rfl

@[simp] theorem context_recordIf (b : Bench) (p : Bool) (e : Event) (c : Handle PollContext) :
    (b.recordIf p e).context c = b.context c := by
  cases p <;> rfl

@[simp] theorem signal_recordIf (b : Bench) (p : Bool) (e : Event) (s : Handle Signal) :
    (b.recordIf p e).signal s = b.signal s := by
  cases p <;> rfl

theorem onlyCard_mask (b : Bench) (n : Handle Nic) : OnlyCard n b (b.mask n) :=
  (OnlyCard.refl n b).modifyNic _

theorem onlyCard_installHandler (b : Bench) (n : Handle Nic) (as : List HandlerAction) :
    OnlyCard n b (b.installHandler n as) :=
  ((OnlyCard.refl n b).modifyNic _).recordIf _ _

theorem onlyCard_removeHandler (b : Bench) (n : Handle Nic) : OnlyCard n b (b.removeHandler n) :=
  (OnlyCard.refl n b).modifyNic _

theorem onlyCard_releaseRings (b : Bench) (n : Handle Nic) :
    OnlyCard n b (b.releaseRings n).1 :=
  (((OnlyCard.refl n b).modifyNic _).record _).record _

theorem onlyCard_setUp (b : Bench) (n : Handle Nic) : OnlyCard n b (b.setUp n) := by
  unfold setUp
  split
  · exact (OnlyCard.refl n b).record _
  · exact (onlyCard_releaseRings b n).recordIf _ _

theorem onlyCard_bringUp (b : Bench) (n : Handle Nic) : OnlyCard n b (b.bringUp n) := by
  unfold bringUp
  split
  · exact (OnlyCard.refl n b).record _
  · exact (((onlyCard_releaseRings b n).recordIf _ _).modifyNic _).record _

theorem onlyCard_shutDown (b : Bench) (n : Handle Nic) : OnlyCard n b (b.shutDown n) := by
  unfold shutDown
  dsimp only
  split
  · exact ((onlyCard_mask b n).modifyNic _).record _
  · exact onlyCard_mask b n

theorem onlyCard_tearDown (b : Bench) (n : Handle Nic) : OnlyCard n b (b.tearDown n).1 := by
  have close : ∀ b' : Bench, OnlyCard n b b' → ∀ p e,
      OnlyCard n b (((b'.releaseRings n).1.modifyNic n fun x =>
        { x with gate := { x.gate with phase := .uninitialized } }).recordIf p e) :=
    fun b' h p e => ((h.trans (onlyCard_releaseRings b' n)).modifyNic _).recordIf p e
  unfold tearDown
  dsimp only
  split
  · exact close _ (((OnlyCard.refl n b).record _).trans (onlyCard_shutDown _ n)) _ _
  · exact close _ (OnlyCard.refl n b) _ _

theorem onlyCard_accept (b : Bench) (n : Handle Nic) (d : Direction) (f : Frame) :
    OnlyCard n b (b.accept n d f).1 := by
  unfold accept
  dsimp only
  split
  · exact (OnlyCard.refl n b).modifyNic _
  · split
    · exact ((OnlyCard.refl n b).modifyNic _).record _
    · exact ((OnlyCard.refl n b).modifyNic _).record _

theorem onlyCard_take (b : Bench) (n : Handle Nic) (d : Direction) :
    OnlyCard n b (b.take n d).1 := by
  unfold take
  dsimp only
  split
  · split
    · exact OnlyCard.refl n b
    · exact ((OnlyCard.refl n b).modifyNic _).record _
  · exact OnlyCard.refl n b

/-! ## What becomes of the card -/

@[simp] theorem nic_mask (b : Bench) (n : Handle Nic) :
    (b.mask n).nic n = { b.nic n with gate := (b.nic n).gate.disarm } :=
  nic_modifyNic_self ..

@[simp] theorem nic_installHandler (b : Bench) (n : Handle Nic) (as : List HandlerAction) :
    (b.installHandler n as).nic n = { b.nic n with handler := some as } := by
  rw [installHandler, nic_recordIf, nic_modifyNic_self]

@[simp] theorem nic_removeHandler (b : Bench) (n : Handle Nic) :
    (b.removeHandler n).nic n = { b.nic n with handler := none } :=
  nic_modifyNic_self ..

@[simp] theorem nic_setHook (b : Bench) (n : Handle Nic) (s : Handle Signal) :
    (b.setHook n s).nic n = { b.nic n with hook := some s } :=
  nic_modifyNic_self ..

@[simp] theorem nic_clearHook (b : Bench) (n : Handle Nic) :
    (b.clearHook n).nic n = { b.nic n with hook := none } :=
  nic_modifyNic_self ..

@[simp] theorem nic_releaseRings (b : Bench) (n : Handle Nic) :
    (b.releaseRings n).1.nic n = (b.nic n).emptied :=
  nic_modifyNic_self ..

theorem nic_setUp_of_ready (h : (b.nic n).gate.isReady = true) :
    (b.setUp n).nic n = b.nic n := by
  rw [setUp, if_pos h, nic_record]

theorem nic_setUp_of_not_ready (h : ¬ (b.nic n).gate.isReady = true) :
    (b.setUp n).nic n = (b.nic n).emptied := by
  rw [setUp, if_neg h]
  exact (nic_recordIf ..).trans (nic_releaseRings b n)

theorem nic_bringUp_of_ready (h : (b.nic n).gate.isReady = true) :
    (b.bringUp n).nic n = b.nic n := by
  rw [bringUp, if_pos h, nic_record]

theorem nic_bringUp_of_not_ready (h : ¬ (b.nic n).gate.isReady = true) :
    (b.bringUp n).nic n = { (b.nic n).emptied with gate := ⟨.ready, true⟩ } := by
  rw [bringUp, if_neg h]
  dsimp only
  rw [nic_record, nic_modifyNic_self, nic_recordIf, nic_releaseRings]

theorem isReady_bringUp (b : Bench) (n : Handle Nic) :
    ((b.bringUp n).nic n).gate.isReady = true := by
  by_cases h : (b.nic n).gate.isReady = true
  · rw [nic_bringUp_of_ready h, h]
  · rw [nic_bringUp_of_not_ready h]
    rfl

theorem nic_shutDown (b : Bench) (n : Handle Nic) :
    (b.shutDown n).nic n = { b.nic n with gate := (b.nic n).gate.shut } := by
  have hm : ((b.mask n).nic n).gate.isReady = (b.nic n).gate.isReady := by
    rw [nic_mask]
    rfl
  unfold shutDown
  dsimp only
  rw [hm]
  split
  · next h =>
    rw [nic_record, nic_modifyNic_self, nic_mask, Gate.shut, if_pos h]
    rfl
  · next h =>
    rw [nic_mask, Gate.shut, if_neg h]
    rfl

/-- The state in which a card is torn down: still ready, it is shut down
first. -/
def beforeTearDown (b : Bench) (n : Handle Nic) : Bench :=
  if (b.nic n).gate.isReady then (b.record (.nic n .teardownWhileReady)).shutDown n else b

theorem nic_beforeTearDown (b : Bench) (n : Handle Nic) :
    (b.beforeTearDown n).nic n = { b.nic n with
      gate := if (b.nic n).gate.isReady then (b.nic n).gate.shut else (b.nic n).gate } := by
  unfold beforeTearDown
  split
  · rw [nic_shutDown, nic_record]
  · rfl

/-- What is left of tearing a card down after that. -/
theorem tearDown_fst (b : Bench) (n : Handle Nic) :
    (b.tearDown n).1 = (((b.beforeTearDown n).releaseRings n).1.modifyNic n fun x =>
        { x with gate := { x.gate with phase := .uninitialized } }).recordIf
      (!(b.tearDown n).2.isEmpty)
      (.nic n (.teardownReturned (b.tearDown n).2.tx.length (b.tearDown n).2.rx.length)) :=
  rfl

theorem nic_tearDown (b : Bench) (n : Handle Nic) :
    (b.tearDown n).1.nic n = { (b.nic n).emptied with
      gate := ⟨.uninitialized, !(b.nic n).gate.isReady && (b.nic n).gate.armed⟩ } := by
  have h : (b.tearDown n).1.nic n = { ((b.beforeTearDown n).nic n).emptied with
      gate := { ((b.beforeTearDown n).nic n).gate with phase := .uninitialized } } := by
    unfold tearDown
    dsimp only
    rw [nic_recordIf, nic_modifyNic_self, nic_releaseRings]
    rfl
  rw [h, nic_beforeTearDown]
  split
  · next hr => simp [Nic.emptied, Gate.shut, hr]
  · next hr => simp [Nic.emptied, hr]

/-- What a card that is torn down gives back: all that is in its rings. -/
theorem tearDown_snd (b : Bench) (n : Handle Nic) :
    (b.tearDown n).2 = ⟨(b.nic n).tx.toList, (b.nic n).rx.toList⟩ := by
  have h : (b.tearDown n).2 =
      ⟨((b.beforeTearDown n).nic n).tx.toList, ((b.beforeTearDown n).nic n).rx.toList⟩ := by
    unfold tearDown
    dsimp only
    rw [Ring.drainAll_fst, Ring.drainAll_fst]
    rfl
  rw [h, nic_beforeTearDown]

/-! ## A card in the place of another -/

/-- A card was replaced, and events were written down. -/
def Puts (n : Handle Nic) (b b' : Bench) : Prop :=
  ∃ x log, b' = { b with nics := b.nics.set n x, journal := log ++ b.journal }

namespace Puts

theorem eq (h : Puts n b b') : ∃ log,
    b' = { b with nics := b.nics.set n (b'.nic n), journal := log ++ b.journal } := by
  obtain ⟨x, log, rfl⟩ := h
  refine ⟨log, ?_⟩
  rw [nic, Store.get_set_self]

theorem trans (h : Puts n b b') (k : Puts n b' b'') : Puts n b b'' := by
  obtain ⟨x, log, rfl⟩ := h
  obtain ⟨y, log', rfl⟩ := k
  refine ⟨y, log' ++ log, ?_⟩
  dsimp only
  rw [Store.set_set, List.append_assoc]

theorem record (h : Puts n b b') (e : Event) : Puts n b (b'.record e) := by
  obtain ⟨x, log, rfl⟩ := h
  exact ⟨x, e :: log, rfl⟩

theorem recordIf (h : Puts n b b') (q : Bool) (e : Event) : Puts n b (b'.recordIf q e) := by
  cases q with
  | false => exact h
  | true => exact h.record e

theorem after_record {e : Event} (h : Puts n (b.record e) b') : Puts n b b' := by
  obtain ⟨x, log, rfl⟩ := h
  refine ⟨x, log ++ [e], ?_⟩
  rw [List.append_assoc]
  rfl

theorem modifyNic (h : Puts n b b') (f : Nic → Nic) : Puts n b (b'.modifyNic n f) :=
  h.trans ⟨f (b'.nic n), [], rfl⟩

end Puts

theorem puts_modifyNic (b : Bench) (n : Handle Nic) (f : Nic → Nic) : Puts n b (b.modifyNic n f) :=
  ⟨f (b.nic n), [], rfl⟩

theorem puts_shutDown (b : Bench) (n : Handle Nic) : Puts n b (b.shutDown n) := by
  unfold shutDown
  dsimp only
  split
  · exact ((puts_modifyNic b n _).modifyNic _).record _
  · exact puts_modifyNic b n _

theorem puts_releaseRings (b : Bench) (n : Handle Nic) : Puts n b (b.releaseRings n).1 :=
  ((puts_modifyNic b n _).record _).record _

theorem puts_tearDown (b : Bench) (n : Handle Nic) : Puts n b (b.tearDown n).1 := by
  have hr := puts_releaseRings (b.beforeTearDown n) n
  rw [tearDown_fst]
  refine Puts.recordIf (Puts.modifyNic ?_ _) _ _
  unfold beforeTearDown at hr ⊢
  split
  · next h =>
    rw [if_pos h] at hr
    exact (puts_shutDown _ n).after_record.trans hr
  · next h =>
    rw [if_neg h] at hr
    exact hr

/-! ### Frames in and out -/

/-- The three ways in which a card answers a frame. -/
theorem accept_cases (b : Bench) (n : Handle Nic) (d : Direction) (f : Frame) :
    ((b.nic n).gate.isReady = false ∧ (b.accept n d f).2 = .error ⟨.notReady, f⟩ ∧
      (b.accept n d f).1.nic n = (b.nic n).countRefused d) ∨
    ((b.nic n).gate.isReady = true ∧ ((b.nic n).ring d).enqueue? f = none ∧
      (b.accept n d f).2 = .error ⟨.ringFull, f⟩ ∧
      (b.accept n d f).1.nic n = (b.nic n).countRefused d) ∨
    ((b.nic n).gate.isReady = true ∧ (b.accept n d f).2 = .ok () ∧
      ∃ r, ((b.nic n).ring d).enqueue? f = some r ∧
        (b.accept n d f).1.nic n = ((b.nic n).setRing d r).countAccepted d f.length) := by
  unfold accept
  dsimp only
  split
  · next h =>
    refine Or.inl ⟨by simpa using h, rfl, ?_⟩
    rw [nic_modifyNic_self]
  · next h =>
    have hr : (b.nic n).gate.isReady = true := by simpa using h
    split
    · next he =>
      refine Or.inr (Or.inl ⟨hr, he, rfl, ?_⟩)
      rw [nic_record, nic_modifyNic_self]
    · next r he =>
      refine Or.inr (Or.inr ⟨hr, rfl, r, he, ?_⟩)
      rw [nic_record, nic_modifyNic_self]

/-- A ready card refuses no frame while it has room. -/
theorem accept_of_room {d : Direction} (hr : (b.nic n).gate.isReady = true)
    (hroom : ((b.nic n).ring d).toList.length + 1 ≠ ((b.nic n).ring d).capacity) (f : Frame) :
    (b.accept n d f).2 = .ok () := by
  rcases b.accept_cases n d f with ⟨hn, -⟩ | ⟨-, hf, -⟩ | ⟨-, ha, -⟩
  · exact absurd hr (by simp [hn])
  · exact absurd (Ring.enqueue?_eq_none_iff.mp hf) hroom
  · exact ha

/-- An empty ring has room. -/
theorem accept_of_nil {d : Direction} (hr : (b.nic n).gate.isReady = true)
    (hnil : ((b.nic n).ring d).toList = []) (f : Frame) : (b.accept n d f).2 = .ok () := by
  refine accept_of_room hr ?_ f
  have := ((b.nic n).ring d).two_le_capacity
  rw [hnil]
  simp only [List.length_nil]
  omega

/-- An accepted frame is the newest of its ring. -/
theorem toList_ring_accept {d : Direction} {f : Frame} (h : (b.accept n d f).2 = .ok ()) :
    (((b.accept n d f).1.nic n).ring d).toList = ((b.nic n).ring d).toList ++ [f] := by
  rcases b.accept_cases n d f with ⟨-, ha, -⟩ | ⟨-, -, ha, -⟩ | ⟨-, -, r, hr, hn⟩
  · rw [h] at ha
    cases ha
  · rw [h] at ha
    cases ha
  · rw [hn, Nic.ring_countAccepted, Nic.ring_setRing_self, Ring.toList_of_enqueue? hr]

/-- What the card writes down when it is offered a frame. -/
theorem journal_accept (b : Bench) (n : Handle Nic) (i : Direction) (f : Frame) :
    ((b.accept n i f).2 = .ok () ∧
      (b.accept n i f).1.journal = .nic n (.accepted i f) :: b.journal) ∨
    ((∃ r, (b.accept n i f).2 = .error r) ∧ ((b.accept n i f).1.journal = b.journal ∨
      (b.accept n i f).1.journal = .nic n (.ringFull i f.length) :: b.journal)) := by
  unfold accept
  dsimp only
  split
  · exact Or.inr ⟨⟨_, rfl⟩, Or.inl rfl⟩
  · split
    · exact Or.inr ⟨⟨_, rfl⟩, Or.inr rfl⟩
    · exact Or.inl ⟨rfl, rfl⟩

/-- What taking a frame comes to: nothing happens, or the oldest frame is
gone. -/
theorem take_cases (b : Bench) (n : Handle Nic) (d : Direction) :
    (((b.nic n).gate.phase.canDrain = true → ((b.nic n).ring d).toList = []) ∧
      b.take n d = (b, none)) ∨
    ((b.nic n).gate.phase.canDrain = true ∧
      ∃ f r, ((b.nic n).ring d).dequeue? = some (f, r) ∧ (b.take n d).2 = some f ∧
        (b.take n d).1.nic n = (b.nic n).setRing d r) := by
  unfold take
  dsimp only
  split
  · next hd =>
    split
    · next he => exact Or.inl ⟨fun _ => Ring.dequeue?_eq_none_iff.mp he, rfl⟩
    · next f r he =>
      refine Or.inr ⟨hd, f, r, he, rfl, ?_⟩
      rw [nic_record, nic_modifyNic_self]
  · next hd => exact Or.inl ⟨fun h => absurd h hd, rfl⟩

/-- A reader that is given nothing has changed nothing. -/
theorem take_of_none {d : Direction} (h : (b.take n d).2 = none) : b.take n d = (b, none) := by
  rcases b.take_cases n d with ⟨-, ht⟩ | ⟨-, f, r, -, hf, -⟩
  · exact ht
  · rw [hf] at h
    cases h

/-- A reader is given the oldest frame of the ring. -/
theorem take_of_some {d : Direction} {f : Frame} (h : (b.take n d).2 = some f) :
    ∃ r, (b.take n d).1.nic n = (b.nic n).setRing d r ∧
      ((b.nic n).ring d).toList = f :: r.toList := by
  rcases b.take_cases n d with ⟨-, ht⟩ | ⟨-, f', r, hr, hf, hn⟩
  · rw [ht] at h
    cases h
  · obtain rfl := Option.some.inj (hf.symm.trans h)
    exact ⟨r, hn, Ring.toList_of_dequeue? hr⟩

/-! ## Requests -/

@[simp] theorem nic_setPhase (b : Bench) (c : Handle PollContext) (p : PollPhase) (m : Handle Nic) :
    (b.setPhase c p).nic m = b.nic m := rfl

@[simp] theorem signal_setPhase (b : Bench) (c : Handle PollContext) (p : PollPhase)
    (s : Handle Signal) : (b.setPhase c p).signal s = b.signal s := rfl

@[simp] theorem context_setPhase (b : Bench) (c : Handle PollContext) (p : PollPhase) :
    (b.setPhase c p).context c = { b.context c with phase := p } :=
  context_modifyContext_self ..

theorem context_setPhase_of_ne {c k : Handle PollContext} (h : k ≠ c) (b : Bench) (p : PollPhase) :
    (b.setPhase c p).context k = b.context k :=
  b.contexts.get_modify_of_ne h _

theorem request_setPhase (b : Bench) (c k : Handle PollContext) (p : PollPhase) :
    ((b.setPhase c p).context k).request = (b.context k).request := by
  by_cases h : k = c
  · rw [h, context_setPhase]
  · rw [context_setPhase_of_ne h]

@[simp] theorem isPending_raise (b : Bench) (s : Handle Signal) :
    ((b.raise s).signal s).isPending = true := by
  rw [raise, signal_record, signal_modifySignal_self, Signal.isPending_raise]

theorem signal_raise_of_ne {s t : Handle Signal} (h : t ≠ s) (b : Bench) :
    (b.raise s).signal t = b.signal t :=
  b.signals.get_modify_of_ne h _

/-- Raising a signal leaves no other request forgotten. -/
theorem isPending_raise_of_isPending {t : Handle Signal} (h : (b.signal t).isPending = true)
    (s : Handle Signal) : ((b.raise s).signal t).isPending = true := by
  by_cases hs : t = s
  · rw [hs, isPending_raise]
  · rw [signal_raise_of_ne hs, h]

theorem phase_request (b : Bench) (c : Handle PollContext) :
    ((b.request c).context c).phase = .scheduled :=
  congrArg PollContext.phase (context_setPhase b c .scheduled)

theorem context_request_of_ne {c k : Handle PollContext} (h : k ≠ c) (b : Bench) :
    (b.request c).context k = b.context k :=
  context_setPhase_of_ne h b .scheduled

theorem request_request (b : Bench) (c k : Handle PollContext) :
    ((b.request c).context k).request = (b.context k).request :=
  request_setPhase b c k .scheduled

/-- A context that asks for a pass raises its own signal. -/
theorem request_eq (b : Bench) (c : Handle PollContext) :
    b.request c =
      ((b.setPhase c .scheduled).record (.poll c .requested)).raise (b.context c).request := by
  unfold request
  dsimp only
  rw [context_record, request_setPhase]

theorem isPending_request (b : Bench) (c : Handle PollContext) :
    ((b.request c).signal (b.context c).request).isPending = true := by
  rw [request_eq, isPending_raise]

theorem signal_request_of_ne {c : Handle PollContext} {s : Handle Signal}
    (h : s ≠ (b.context c).request) : (b.request c).signal s = b.signal s := by
  rw [request_eq, signal_raise_of_ne h, signal_record, signal_setPhase]

theorem schedule_of_idle {c : Handle PollContext} (h : (b.context c).phase = .idle) :
    b.schedule c = (b.request c, true) := by
  rw [schedule, h]

theorem schedule_of_not_idle {c : Handle PollContext} (h : (b.context c).phase ≠ .idle) :
    b.schedule c = (b, false) := by
  unfold schedule
  split
  · next hi => exact absurd hi h
  · rfl

/-! ## Interrupts -/

/-- Nothing differs between two benches but what the handler of a card may
touch: signals, the phases of contexts, and the interrupt line of the card. -/
structure Interrupted (n : Handle Nic) (b b' : Bench) : Prop where
  nic : ∀ m, m ≠ n → b'.nic m = b.nic m
  card : ∃ armed, b'.nic n = { b.nic n with gate := { (b.nic n).gate with armed } }
  request : ∀ c, (b'.context c).request = (b.context c).request
  devices : b'.devices = b.devices
  peers : b'.peers = b.peers
  endpoints : b'.endpoints = b.endpoints

namespace Interrupted

theorem of_nics (hn : b'.nics = b.nics)
    (hr : ∀ c, (b'.context c).request = (b.context c).request) (hd : b'.devices = b.devices)
    (hp : b'.peers = b.peers) (he : b'.endpoints = b.endpoints) : Interrupted n b b' where
  nic _ _ := by rw [Bench.nic, hn, Bench.nic]
  card := ⟨(b.nic n).gate.armed, by rw [Bench.nic, hn, Bench.nic]⟩
  request := hr
  devices := hd
  peers := hp
  endpoints := he

theorem refl (n : Handle Nic) (b : Bench) : Interrupted n b b :=
  of_nics rfl (fun _ => rfl) rfl rfl rfl

theorem trans (h : Interrupted n b b') (k : Interrupted n b' b'') : Interrupted n b b'' where
  nic m hm := (k.nic m hm).trans (h.nic m hm)
  card := by
    obtain ⟨a, ha⟩ := h.card
    obtain ⟨a', ha'⟩ := k.card
    exact ⟨a', by rw [ha', ha]⟩
  request c := (k.request c).trans (h.request c)
  devices := k.devices.trans h.devices
  peers := k.peers.trans h.peers
  endpoints := k.endpoints.trans h.endpoints

theorem ring_eq (h : Interrupted n b b') (d : Direction) :
    (b'.nic n).ring d = (b.nic n).ring d := by
  obtain ⟨a, ha⟩ := h.card
  rw [ha]
  cases d <;> rfl

theorem phase_eq (h : Interrupted n b b') : (b'.nic n).gate.phase = (b.nic n).gate.phase := by
  obtain ⟨a, ha⟩ := h.card
  rw [ha]

theorem handler_eq (h : Interrupted n b b') : (b'.nic n).handler = (b.nic n).handler := by
  obtain ⟨a, ha⟩ := h.card
  rw [ha]

theorem hook_eq (h : Interrupted n b b') : (b'.nic n).hook = (b.nic n).hook := by
  obtain ⟨a, ha⟩ := h.card
  rw [ha]

end Interrupted

theorem interrupted_record (n : Handle Nic) (b : Bench) (e : Event) :
    Interrupted n b (b.record e) :=
  .of_nics rfl (fun _ => rfl) rfl rfl rfl

theorem interrupted_recordIf (n : Handle Nic) (b : Bench) (p : Bool) (e : Event) :
    Interrupted n b (b.recordIf p e) := by
  cases p
  · exact Interrupted.refl n b
  · exact interrupted_record n b e

theorem interrupted_raise (n : Handle Nic) (b : Bench) (s : Handle Signal) :
    Interrupted n b (b.raise s) :=
  .of_nics rfl (fun _ => rfl) rfl rfl rfl

theorem interrupted_request (n : Handle Nic) (b : Bench) (c : Handle PollContext) :
    Interrupted n b (b.request c) :=
  .of_nics rfl (request_request b c) rfl rfl rfl

theorem interrupted_schedule (n : Handle Nic) (b : Bench) (c : Handle PollContext) :
    Interrupted n b (b.schedule c).1 := by
  by_cases h : (b.context c).phase = .idle
  · rw [schedule_of_idle h]
    exact interrupted_request n b c
  · rw [schedule_of_not_idle h]
    exact Interrupted.refl n b

theorem interrupted_modifyGate (n : Handle Nic) (b : Bench) (armed : Bool) :
    Interrupted n b (b.modifyNic n fun x => { x with gate := { x.gate with armed } }) where
  nic _ hm := b.nic_modifyNic_of_ne hm _
  card := ⟨armed, nic_modifyNic_self ..⟩
  request _ := rfl
  devices := rfl
  peers := rfl
  endpoints := rfl

theorem interrupted_act (n : Handle Nic) (b : Bench) (a : HandlerAction) :
    Interrupted n b (act n b a) := by
  cases a with
  | raise s => exact interrupted_raise n b s
  | arm => exact interrupted_modifyGate n b true
  | disarm => exact interrupted_modifyGate n b false
  | schedule c => exact interrupted_schedule n b c

theorem interrupted_foldl_act (n : Handle Nic) (b : Bench) (as : List HandlerAction) :
    Interrupted n b (as.foldl (act n) b) := by
  induction as generalizing b with
  | nil => exact Interrupted.refl n b
  | cons a as ih => exact (interrupted_act n b a).trans (ih _)

theorem interrupted_interrupt (b : Bench) (n : Handle Nic) :
    Interrupted n b (b.interrupt n).1 := by
  unfold interrupt
  split
  · split
    · next as _ => exact (interrupted_record n b _).trans (interrupted_foldl_act n _ as)
    · exact Interrupted.refl n b
  · exact Interrupted.refl n b

theorem interrupt_of_masked (h : (b.nic n).gate.armed = false) : b.interrupt n = (b, false) := by
  rw [interrupt, h]
  rfl

/-- The bench right after the interrupt line of a card was armed. -/
def armLine (b : Bench) (n : Handle Nic) : Bench :=
  (b.modifyNic n fun x => { x with gate := x.gate.arm }).record (.nic n .rearmed)

theorem rearm_eq (b : Bench) (n : Handle Nic) :
    b.rearm n = if (b.nic n).gate.isReady && !(b.nic n).rx.isEmpty
      then ((b.armLine n).interrupt n).1 else b.armLine n := by
  have h : (b.armLine n).nic n = { b.nic n with gate := (b.nic n).gate.arm } := by
    rw [armLine, nic_record, nic_modifyNic_self]
  -- Arming changes neither the phase nor the ring, so both can be asked for before.
  have hg : ((b.armLine n).nic n).gate.isReady = (b.nic n).gate.isReady := by
    rw [h]
    rfl
  have hx : ((b.armLine n).nic n).rx = (b.nic n).rx := by rw [h]
  rw [← hg, ← hx]
  rfl

theorem interrupted_armLine (b : Bench) (n : Handle Nic) : Interrupted n b (b.armLine n) :=
  (interrupted_modifyGate n b true).trans (interrupted_record n _ _)

theorem interrupted_rearm (b : Bench) (n : Handle Nic) : Interrupted n b (b.rearm n) := by
  rw [rearm_eq]
  split
  · exact (interrupted_armLine b n).trans (interrupted_interrupt _ n)
  · exact interrupted_armLine b n

theorem interrupted_raiseHook (b : Bench) (n : Handle Nic) : Interrupted n b (b.raiseHook n) := by
  unfold raiseHook
  split
  · next s _ => exact interrupted_raise n b s
  · exact Interrupted.refl n b

/-- A frame changes nothing about a card but a ring and a counter. -/
theorem accept_control (b : Bench) (n : Handle Nic) (d : Direction) (f : Frame) :
    (b.nic n).SameControl ((b.accept n d f).1.nic n) := by
  rcases b.accept_cases n d f with ⟨-, -, hn⟩ | ⟨-, -, -, hn⟩ | ⟨-, -, r, -, hn⟩
  · rw [hn]
    exact Nic.sameControl_countRefused ..
  · rw [hn]
    exact Nic.sameControl_countRefused ..
  · rw [hn]
    exact (Nic.sameControl_setRing ..).trans (Nic.sameControl_countAccepted ..)

theorem ring_accept_of_ne {d e : Direction} (he : e ≠ d) (b : Bench) (n : Handle Nic) (f : Frame) :
    ((b.accept n d f).1.nic n).ring e = (b.nic n).ring e := by
  rcases b.accept_cases n d f with ⟨-, -, hn⟩ | ⟨-, -, -, hn⟩ | ⟨-, -, r, -, hn⟩
  · rw [hn, Nic.ring_countRefused]
  · rw [hn, Nic.ring_countRefused]
  · rw [hn, Nic.ring_countAccepted, Nic.ring_setRing_of_ne _ he]

theorem take_control (b : Bench) (n : Handle Nic) (d : Direction) :
    (b.nic n).SameControl ((b.take n d).1.nic n) := by
  rcases b.take_cases n d with ⟨-, ht⟩ | ⟨-, f, r, -, -, hn⟩
  · rw [ht]
    exact ⟨rfl, rfl, rfl⟩
  · rw [hn]
    exact Nic.sameControl_setRing ..

/-- What a reader takes makes the ring no longer. -/
theorem ring_take_of_nil {d e : Direction} (h : ((b.nic n).ring e).toList = []) :
    (((b.take n d).1.nic n).ring e).toList = [] := by
  rcases b.take_cases n d with ⟨-, ht⟩ | ⟨-, f, r, hr, -, hn⟩
  · rw [ht]
    exact h
  · rw [hn]
    by_cases he : e = d
    · subst he
      rw [Ring.toList_of_dequeue? hr] at h
      cases h
    · rw [Nic.ring_setRing_of_ne _ he, h]

/-- Sending a frame raises the hook of the card, if it has one and the frame
was accepted, and no other signal. -/
theorem transmit_cases (b : Bench) (n : Handle Nic) (f : Frame) :
    (b.transmit n f).1 = (b.accept n .transmit f).1 ∨
      ∃ t, (b.nic n).hook = some t ∧
        (b.transmit n f).1 = (b.accept n .transmit f).1.raise t := by
  have hk := (b.accept_control n .transmit f).hook
  unfold transmit
  split
  · next h =>
    rw [h]
    exact Or.inl rfl
  · next b' h =>
    rw [h] at hk ⊢
    unfold raiseHook
    split
    · next t ht => exact Or.inr ⟨t, hk.symm.trans ht, rfl⟩
    · exact Or.inl rfl

/-- Sending a frame: the card accepts it, and its hook is raised if it did. -/
theorem transmit_eq (b : Bench) (n : Handle Nic) (f : Frame) :
    (b.transmit n f).2 = (b.accept n .transmit f).2 ∧
      Interrupted n (b.accept n .transmit f).1 (b.transmit n f).1 := by
  unfold transmit
  split
  · next h =>
    rw [h]
    exact ⟨rfl, Interrupted.refl ..⟩
  · next h =>
    rw [h]
    exact ⟨rfl, interrupted_raiseHook ..⟩

/-- A refused frame raises nothing. -/
theorem transmit_of_error {f : Frame} {r : Rejection}
    (h : (b.accept n .transmit f).2 = .error r) : b.transmit n f = b.accept n .transmit f := by
  rw [transmit, show b.accept n .transmit f = ((b.accept n .transmit f).1, .error r) from
    Prod.ext rfl h]

/-- An accepted one raises the hook, once the frame is queued. -/
theorem transmit_of_ok {f : Frame} (h : (b.accept n .transmit f).2 = .ok ()) :
    b.transmit n f = ((b.accept n .transmit f).1.raiseHook n, .ok ()) := by
  rw [transmit, show b.accept n .transmit f = ((b.accept n .transmit f).1, .ok ()) from
    Prod.ext rfl h]

theorem raiseHook_of_some {t : Handle Signal} (h : (b.nic n).hook = some t) :
    b.raiseHook n = b.raise t := by
  rw [raiseHook, h]

theorem raiseHook_of_none (h : (b.nic n).hook = none) : b.raiseHook n = b := by
  rw [raiseHook, h]

/-- What delivering a frame comes to: the card refuses it and both rings stay as
they are, or it accepts it and interrupts. -/
theorem deliver_cases (b : Bench) (n : Handle Nic) (f : Frame) :
    ((b.accept n .receive f).2 ≠ .ok () ∧ (b.deliver n f).1 = (b.accept n .receive f).1 ∧
      ∀ e, ((b.deliver n f).1.nic n).ring e = (b.nic n).ring e) ∨
    ((b.nic n).gate.isReady = true ∧ (b.accept n .receive f).2 = .ok () ∧ ∃ p e,
      (b.deliver n f).1 = ((b.accept n .receive f).1.interrupt n).1.recordIf p e) := by
  -- A card that is down and a card whose ring is full refuse alike.
  have refused : ∀ b' r, b.accept n .receive f = (b', .error r) →
      b'.nic n = (b.nic n).countRefused .receive → (b.deliver n f).1 = b' ∧
        ∀ e, ((b.deliver n f).1.nic n).ring e = (b.nic n).ring e := by
    intro b' r ha hn
    have hd : (b.deliver n f).1 = b' := by rw [deliver, ha]
    exact ⟨hd, fun e => by rw [hd, hn, Nic.ring_countRefused]⟩
  cases ha : b.accept n .receive f with
  | mk b' answer =>
    have hc := b.accept_cases n .receive f
    rw [ha] at hc
    rcases hc with ⟨-, rfl, hn⟩ | ⟨-, -, rfl, hn⟩ | ⟨hr, rfl, -⟩
    · exact Or.inl ⟨nofun, refused b' _ ha hn⟩
    · exact Or.inl ⟨nofun, refused b' _ ha hn⟩
    · refine Or.inr ⟨hr, rfl, (b'.interrupt n).2, .nic n .interruptRaised, ?_⟩
      rw [deliver, ha]

/-- Delivering a frame: the card accepts it, and interrupts if it did. -/
theorem deliver_eq (b : Bench) (n : Handle Nic) (f : Frame) :
    (b.deliver n f).2 = (b.accept n .receive f).2 ∧
      Interrupted n (b.accept n .receive f).1 (b.deliver n f).1 := by
  unfold deliver
  split
  · next h =>
    rw [h]
    exact ⟨rfl, Interrupted.refl ..⟩
  · next b' h =>
    rw [h]
    exact ⟨rfl, (interrupted_interrupt b' n).trans (interrupted_recordIf ..)⟩

/-- A refused frame does not interrupt. -/
theorem deliver_of_error {f : Frame} {r : Rejection} (h : (b.accept n .receive f).2 = .error r) :
    b.deliver n f = b.accept n .receive f := by
  rw [deliver, show b.accept n .receive f = ((b.accept n .receive f).1, .error r) from
    Prod.ext rfl h]

/-- An accepted one does, if the line is armed and a handler is installed. -/
theorem deliver_of_ok {f : Frame} (h : (b.accept n .receive f).2 = .ok ()) :
    (b.deliver n f).1 = ((b.accept n .receive f).1.interrupt n).1.recordIf
      ((b.accept n .receive f).1.interrupt n).2 (.nic n .interruptRaised) := by
  rw [deliver, show b.accept n .receive f = ((b.accept n .receive f).1, .ok ()) from Prod.ext rfl h]

theorem isReady_deliver (b : Bench) (n : Handle Nic) (f : Frame) :
    ((b.deliver n f).1.nic n).gate.isReady = (b.nic n).gate.isReady := by
  rw [Gate.isReady, (b.deliver_eq n f).2.phase_eq, (b.accept_control n .receive f).gate, Gate.isReady]

/-! ## Transfers -/

/-- Keep every frame, oldest first. -/
def gather : Sink (List Frame) := fun f (b, fs) => (b, fs ++ [f])

section Transfers

variable {γ : Type} {next : Bench → Bench × Option Frame} {sink : Sink γ} {P : Bench × γ → Prop}
  {Q : Frame → Bench × γ → Prop} {budget : Nat} {x y : Bench × γ} {f : Frame}

/-- A transfer calls its sink, with a frame and on a bench. -/
inductive Hands (next : Bench → Bench × Option Frame) (sink : Sink γ) :
    Nat → Bench × γ → Frame → Bench × γ → Prop
  | now {budget : Nat} {b b' : Bench} {g : γ} {f : Frame} (h : next b = (b', some f)) :
    Hands next sink (budget + 1) (b, g) f (b', g)
  | later {budget : Nat} {b b' : Bench} {g : γ} {f f' : Frame} {y : Bench × γ}
    (h : next b = (b', some f)) (hl : Hands next sink budget (sink f (b', g)) f' y) :
    Hands next sink (budget + 1) (b, g) f' y

/-- A transfer preserves what taking a frame and the calls that are made preserve
together.  While a frame is in hand, something else may stand instead. -/
theorem pump_of_hands (hnone : ∀ b g, P (b, g) → (next b).2 = none → P ((next b).1, g))
    (hsome : ∀ b g f, P (b, g) → (next b).2 = some f → Q f ((next b).1, g)) (budget : Nat)
    (hcall : ∀ f y, Hands next sink budget x f y → Q f y → P (sink f y)) (hx : P x) :
    P (pump next sink budget x).1 := by
  induction budget generalizing x with
  | zero => exact hx
  | succ budget ih =>
    obtain ⟨b, g⟩ := x
    rw [pump]
    split
    · next b' h =>
      have hb := hnone b g hx (congrArg Prod.snd h)
      rwa [h] at hb
    · next b' f h =>
      have hb := hsome b g f hx (congrArg Prod.snd h)
      rw [h] at hb
      exact ih (fun f' y hy => hcall f' y (.later h hy)) (hcall f _ (.now h) hb)

/-- And that is what stands wherever a call is made. -/
theorem Hands.invariant (h : Hands next sink budget x f y)
    (hsome : ∀ b g f, P (b, g) → (next b).2 = some f → Q f ((next b).1, g))
    (hcall : ∀ f y, Hands next sink budget x f y → Q f y → P (sink f y)) (hx : P x) : Q f y := by
  induction h with
  | now h =>
    have hb := hsome _ _ _ hx (congrArg Prod.snd h)
    rwa [h] at hb
  | later h _ ih =>
    have hb := hsome _ _ _ hx (congrArg Prod.snd h)
    rw [h] at hb
    exact ih (fun f' y hy => hcall f' y (.later h hy)) (hcall _ _ (.now h) hb)

/-- What taking a frame and the sink both preserve, a transfer preserves. -/
theorem pump_invariant (hnone : ∀ b g, P (b, g) → (next b).2 = none → P ((next b).1, g))
    (hsome : ∀ b g f, P (b, g) → (next b).2 = some f → P (sink f ((next b).1, g)))
    (budget : Nat) (hx : P x) : P (pump next sink budget x).1 :=
  pump_of_hands (Q := fun f y => P (sink f y)) hnone hsome budget (fun _ _ _ hy => hy) hx

end Transfers

end Bench
end SoftNic
