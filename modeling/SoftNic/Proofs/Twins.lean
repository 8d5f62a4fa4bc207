import SoftNic.Proofs.Books
import SoftNic.Proofs.Ownership

/-! # Benches that cannot be told apart

No operation asks where the counters of a card stand: it adds to them, and that is all.
Nor does an operation ask whether a signal is pending, unless it takes the signal.  So
two benches that differ in these respects only (`Bench.Alike`) stay so, whatever is done
to both of them, and every operation answers the same on both (`Bench.Agrees`).  How far
they may differ is a `Gap`: it says for every card how much further its counters stand
on the first bench, and names the one signal, if there is one, on which the first bench
remembers a request that the second does not.

There is one lemma for each operation, and the lemmas follow the operations line by line.
The events that an operation writes into the two journals are the same too.
-/
namespace SoftNic

namespace Counters

variable (c δ : Counters) (k : Nat)

@[simp] theorem since_zero : c.since zero = c := by
  simp [since, zero]

@[simp] theorem since_self : c.since c = zero := by
  simp [since, zero]

theorem sent_since : (c.since δ).sent k = (c.sent k).since δ := by
  simp only [since, sent, mk.injEq]
  grind

theorem received_since : (c.since δ).received k = (c.received k).since δ := by
  simp only [since, received, mk.injEq]
  grind

theorem sendDropped_since : (c.since δ).sendDropped = c.sendDropped.since δ := by
  simp only [since, sendDropped, mk.injEq]
  grind

theorem receiveDropped_since : (c.since δ).receiveDropped = c.receiveDropped.since δ := by
  simp only [since, receiveDropped, mk.injEq]
  grind

end Counters

namespace Signal

/-- One signal remembers whatever another does, and perhaps more. -/
def Ahead : Signal → Signal → Prop
  | flag p, flag q => q = true → p = true
  | tally m, tally k => k ≤ m
  | _, _ => False

namespace Ahead

variable {x y : Signal}

theorem refl (x : Signal) : x.Ahead x := by
  cases x with
  | flag p => exact id
  | tally m => exact Nat.le_refl m

theorem raise (h : x.Ahead y) : x.raise.Ahead y.raise := by
  cases x with
  | flag p =>
    cases y with
    | flag q => exact id
    | tally k => exact h
  | tally m =>
    cases y with
    | flag q => exact h
    | tally k => exact Nat.succ_le_succ h

/-- Taken, both remember nothing. -/
theorem clear_eq (h : x.Ahead y) : y.clear = x.clear := by
  cases x with
  | flag p =>
    cases y with
    | flag q => rfl
    | tally k => exact h.elim
  | tally m =>
    cases y with
    | flag q => exact h.elim
    | tally k => rfl

theorem clear (x : Signal) : x.Ahead x.clear := by
  cases x with
  | flag p => exact nofun
  | tally m => exact Nat.zero_le m

end Ahead
end Signal

namespace Nic

/-- The card as if it had begun to count only when its counters stood where they are
given. -/
def since (x : Nic) (δ : Counters) : Nic :=
  { x with counters := x.counters.since δ }

variable (x : Nic) (δ : Counters)

@[simp] theorem gate_since : (x.since δ).gate = x.gate := rfl
@[simp] theorem tx_since : (x.since δ).tx = x.tx := rfl
@[simp] theorem rx_since : (x.since δ).rx = x.rx := rfl
@[simp] theorem handler_since : (x.since δ).handler = x.handler := rfl
@[simp] theorem hook_since : (x.since δ).hook = x.hook := rfl

@[simp] theorem ring_since (i : Direction) : (x.since δ).ring i = x.ring i := by
  cases i <;> rfl

@[simp] theorem since_zero : x.since Counters.zero = x := by
  rw [since, Counters.since_zero]

/-- A change to a card that does not ask where its counters stand. -/
def Uncounted (f : Nic → Nic) : Prop :=
  ∀ x δ, f (x.since δ) = (f x).since δ

theorem uncounted_setRing (i : Direction) (r : Ring Frame) : Uncounted (·.setRing i r) := by
  intro x δ
  cases i <;> rfl

theorem uncounted_countAccepted (i : Direction) (k : Nat) : Uncounted (·.countAccepted i k) := by
  intro x δ
  cases i with
  | transmit => simp only [countAccepted, since, Counters.sent_since]
  | receive => simp only [countAccepted, since, Counters.received_since]

theorem uncounted_countRefused (i : Direction) : Uncounted (·.countRefused i) := by
  intro x δ
  cases i with
  | transmit => simp only [countRefused, since, Counters.sendDropped_since]
  | receive => simp only [countRefused, since, Counters.receiveDropped_since]

theorem Uncounted.comp {f f' : Nic → Nic} (hf : Uncounted f) (hf' : Uncounted f') :
    Uncounted fun x => f' (f x) := by
  intro x δ
  show f' (f (x.since δ)) = (f' (f x)).since δ
  rw [hf, hf']

end Nic

/-- How far two benches may differ. -/
structure Gap where
  /-- How much further the counters of a card stand on the first bench. -/
  counted : Handle Nic → Counters
  /-- The signal on which only the first bench may remember a request. -/
  stale : Option (Handle Signal)
  /-- What had happened on the first bench. -/
  past : List Event
  /-- What had happened on the second bench. -/
  past' : List Event

namespace Bench

variable {g : Gap} {b b' : Bench} {α β : Type}

/-- **Two benches cannot be told apart**, but for a gap.  The same parts are on both, and
since the gap was opened the same has happened on both. -/
structure Alike (g : Gap) (b b' : Bench) : Prop where
  nics : b'.nics.next = b.nics.next
  nic : ∀ m, b'.nic m = (b.nic m).since (g.counted m)
  /-- A card that is yet to come counts from zero on both benches. -/
  uncounted : ∀ m, ¬ b.nics.Has m → g.counted m = Counters.zero
  signals : b'.signals.next = b.signals.next
  signal : ∀ t, (b.signal t).Ahead (b'.signal t)
  signal_eq : ∀ t, g.stale ≠ some t → b'.signal t = b.signal t
  contexts : b'.contexts = b.contexts
  devices : b'.devices = b.devices
  peers : b'.peers = b.peers
  endpoints : b'.endpoints = b.endpoints
  journal : ∃ new, b.journal = new ++ g.past ∧ b'.journal = new ++ g.past'

/-- Something was done to two benches, the answer was the same, and they cannot be told
apart. -/
inductive Agrees (g : Gap) : Bench × β → Bench × β → Prop
  | intro {b b' : Bench} (h : Alike g b b') (a : β) : Agrees g (b, a) (b', a)

namespace Agrees

variable {r r' : Bench × β}

theorem bench (h : Agrees g r r') : Alike g r.1 r'.1 := by
  cases h with
  | intro h a => exact h

theorem answer (h : Agrees g r r') : r'.2 = r.2 := by
  cases h with
  | intro h a => rfl

theorem of (h : Alike g r.1 r'.1) (ha : r'.2 = r.2) : Agrees g r r' := by
  obtain ⟨b, a⟩ := r
  obtain ⟨b', a'⟩ := r'
  obtain rfl : a' = a := ha
  exact .intro h a'

end Agrees

namespace Alike

variable (h : Alike g b b') (n : Handle Nic) (c : Handle PollContext) (d : Handle Device)
  (p : Handle Peer) (s t : Handle Signal) (f : Frame)

/-! ## What is seen of the parts -/

section Parts

include h

theorem gate : (b'.nic n).gate = (b.nic n).gate := by rw [h.nic, Nic.gate_since]

theorem tx : (b'.nic n).tx = (b.nic n).tx := by rw [h.nic, Nic.tx_since]

theorem rx : (b'.nic n).rx = (b.nic n).rx := by rw [h.nic, Nic.rx_since]

theorem ring (i : Direction) : (b'.nic n).ring i = (b.nic n).ring i := by
  rw [h.nic, Nic.ring_since]

theorem handler : (b'.nic n).handler = (b.nic n).handler := by rw [h.nic, Nic.handler_since]

theorem hook : (b'.nic n).hook = (b.nic n).hook := by rw [h.nic, Nic.hook_since]

theorem context : b'.context c = b.context c := by rw [Bench.context, h.contexts, Bench.context]

theorem device : b'.device d = b.device d := by rw [Bench.device, h.devices, Bench.device]

theorem peer : b'.peer p = b.peer p := by rw [Bench.peer, h.peers, Bench.peer]

/-! ## Changes to one part -/

theorem record (e : Event) : Alike g (b.record e) (b'.record e) := by
  obtain ⟨new, hj, hj'⟩ := h.journal
  exact { h with
    journal := ⟨e :: new, congrArg (e :: ·) hj, congrArg (e :: ·) hj'⟩ }

theorem recordIf (q : Bool) (e : Event) : Alike g (b.recordIf q e) (b'.recordIf q e) := by
  cases q with
  | false => exact h
  | true => exact h.record e

theorem modifyNic {k : Nic → Nic} (hk : Nic.Uncounted k) :
    Alike g (b.modifyNic n k) (b'.modifyNic n k) :=
  { h with
    nic := fun m => by
      by_cases hm : m = n
      · rw [hm, nic_modifyNic_self, nic_modifyNic_self, h.nic, hk]
      · rw [nic_modifyNic_of_ne _ hm, nic_modifyNic_of_ne _ hm, h.nic] }

theorem modifyContext (k : PollContext → PollContext) :
    Alike g (b.modifyContext c k) (b'.modifyContext c k) :=
  { h with contexts := congrArg (·.modify c k) h.contexts }

theorem modifyDevice (k : Device → Device) :
    Alike g (b.modifyDevice d k) (b'.modifyDevice d k) :=
  { h with devices := congrArg (·.modify d k) h.devices }

theorem modifyPeer (k : Peer → Peer) : Alike g (b.modifyPeer p k) (b'.modifyPeer p k) :=
  { h with peers := congrArg (·.modify p k) h.peers }

theorem modifySignal {k : Signal → Signal} (hk : ∀ x y : Signal, x.Ahead y → (k x).Ahead (k y)) :
    Alike g (b.modifySignal s k) (b'.modifySignal s k) :=
  { h with
    signal := fun t => by
      by_cases ht : t = s
      · rw [ht, signal_modifySignal_self, signal_modifySignal_self]
        exact hk _ _ (h.signal s)
      · rw [signal_modifySignal_of_ne _ ht, signal_modifySignal_of_ne _ ht]
        exact h.signal t
    signal_eq := fun t hg => by
      by_cases ht : t = s
      · rw [ht, signal_modifySignal_self, signal_modifySignal_self, h.signal_eq s (ht ▸ hg)]
      · rw [signal_modifySignal_of_ne _ ht, signal_modifySignal_of_ne _ ht, h.signal_eq t hg] }

end Parts

/-! ## Signals and contexts -/

section Requests

include h

theorem raise : Alike g (b.raise s) (b'.raise s) :=
  (h.modifySignal s fun _ _ => Signal.Ahead.raise).record _

/-- Taking a signal that both benches remember alike. -/
theorem takeSignal (hs : g.stale ≠ some s) : Agrees g (b.takeSignal s) (b'.takeSignal s) := by
  refine .of (h.modifySignal s fun x y hxy => ?_) ?_
  · rw [hxy.clear_eq]
    exact .refl _
  · exact congrArg Signal.isPending (h.signal_eq s hs)

/-- Taking the signal that they do not remember alike closes the gap. -/
theorem takeSignal_stale (hs : g.stale = some s) :
    Alike { g with stale := none } (b.takeSignal s).1 (b'.takeSignal s).1 := by
  have hk : ∀ x y : Signal, x.Ahead y → x.clear.Ahead y.clear := fun x y hxy => by
    rw [hxy.clear_eq]
    exact .refl _
  have h₁ := h.modifySignal s hk
  exact { h₁ with
    signal_eq := fun t _ => by
      by_cases ht : t = s
      · rw [ht]
        show (b'.modifySignal s Signal.clear).signal s = (b.modifySignal s Signal.clear).signal s
        rw [signal_modifySignal_self, signal_modifySignal_self, (h.signal s).clear_eq]
      · exact h₁.signal_eq t fun he => ht (Option.some.inj (he.symm.trans hs)) }

theorem setPhase (q : PollPhase) : Alike g (b.setPhase c q) (b'.setPhase c q) :=
  h.modifyContext c _

theorem request : Alike g (b.request c) (b'.request c) := by
  have h₁ := (h.setPhase c .scheduled).record (.poll c .requested)
  unfold Bench.request
  dsimp only
  rw [h₁.context]
  exact h₁.raise _

theorem schedule : Agrees g (b.schedule c) (b'.schedule c) := by
  unfold Bench.schedule
  rw [h.context]
  split
  · exact .intro (h.request c) true
  · exact .intro h false

theorem enableContext : Alike g (b.enableContext c) (b'.enableContext c) := by
  unfold Bench.enableContext
  rw [h.context]
  split
  · exact h.setPhase c .idle
  · exact h.record _

theorem disableContext : Agrees g (b.disableContext c) (b'.disableContext c) := by
  unfold Bench.disableContext
  rw [h.context]
  split
  · exact .intro h _
  · exact .intro ((h.setPhase c .disabled).record _) _
  · exact .intro (h.setPhase c .disabled) _

end Requests

/-! ## Cards -/

section Cards

include h

theorem act (a : HandlerAction) : Alike g (Bench.act n b a) (Bench.act n b' a) := by
  cases a with
  | raise s => exact h.raise s
  | arm => exact h.modifyNic n fun _ _ => rfl
  | disarm => exact h.modifyNic n fun _ _ => rfl
  | schedule c => exact (h.schedule c).bench

omit h in
theorem foldl_act (h : Alike g b b') (as : List HandlerAction) :
    Alike g (as.foldl (Bench.act n) b) (as.foldl (Bench.act n) b') := by
  induction as generalizing b b' with
  | nil => exact h
  | cons a as ih => exact ih (h.act n a)

theorem interrupt : Agrees g (b.interrupt n) (b'.interrupt n) := by
  unfold Bench.interrupt
  rw [h.gate, h.handler]
  split
  · split
    · exact .intro ((h.record _).foldl_act n _) true
    · exact .intro h false
  · exact .intro h false

theorem installHandler (as : List HandlerAction) :
    Alike g (b.installHandler n as) (b'.installHandler n as) := by
  unfold Bench.installHandler
  rw [h.handler]
  exact (h.modifyNic n fun _ _ => rfl).recordIf _ _

theorem removeHandler : Alike g (b.removeHandler n) (b'.removeHandler n) :=
  h.modifyNic n fun _ _ => rfl

theorem rearm : Alike g (b.rearm n) (b'.rearm n) := by
  have h₁ : Alike g (b.armLine n) (b'.armLine n) := (h.modifyNic n fun _ _ => rfl).record _
  rw [rearm_eq, rearm_eq, h.gate, h.rx]
  split
  · exact (h₁.interrupt n).bench
  · exact h₁

theorem mask : Alike g (b.mask n) (b'.mask n) :=
  h.modifyNic n fun _ _ => rfl

theorem setHook : Alike g (b.setHook n s) (b'.setHook n s) :=
  h.modifyNic n fun _ _ => rfl

theorem clearHook : Alike g (b.clearHook n) (b'.clearHook n) :=
  h.modifyNic n fun _ _ => rfl

theorem clearHookIf : Alike g (b.clearHookIf n s) (b'.clearHookIf n s) := by
  unfold Bench.clearHookIf
  rw [h.hook]
  split
  · exact h.clearHook n
  · exact h

theorem raiseHook : Alike g (b.raiseHook n) (b'.raiseHook n) := by
  unfold Bench.raiseHook
  rw [h.hook]
  split
  · exact h.raise _
  · exact h

theorem releaseRings : Agrees g (b.releaseRings n) (b'.releaseRings n) := by
  unfold Bench.releaseRings
  dsimp only
  rw [h.tx, h.rx]
  exact .intro (((h.modifyNic n fun _ _ => rfl).record _).record _) _

theorem setUp : Alike g (b.setUp n) (b'.setUp n) := by
  have hr := h.releaseRings n
  unfold Bench.setUp
  rw [h.gate]
  split
  · exact h.record _
  · dsimp only
    rw [hr.answer]
    exact hr.bench.recordIf _ _

theorem bringUp : Alike g (b.bringUp n) (b'.bringUp n) := by
  have hr := h.releaseRings n
  unfold Bench.bringUp
  rw [h.gate]
  split
  · exact h.record _
  · dsimp only
    rw [hr.answer]
    exact ((hr.bench.recordIf _ _).modifyNic n fun _ _ => rfl).record _

theorem shutDown : Alike g (b.shutDown n) (b'.shutDown n) := by
  have hm := h.mask n
  unfold Bench.shutDown
  dsimp only
  rw [hm.gate]
  split
  · exact (hm.modifyNic n fun _ _ => rfl).record _
  · exact hm

theorem beforeTearDown : Alike g (b.beforeTearDown n) (b'.beforeTearDown n) := by
  unfold Bench.beforeTearDown
  rw [h.gate]
  split
  · exact (h.record _).shutDown n
  · exact h

theorem tearDown : Agrees g (b.tearDown n) (b'.tearDown n) := by
  have hr := ((h.beforeTearDown n).releaseRings n).bench
  have ha : (b'.tearDown n).2 = (b.tearDown n).2 := by
    rw [tearDown_snd, tearDown_snd, h.tx, h.rx]
  refine .of ?_ ha
  rw [tearDown_fst b, tearDown_fst b', ha]
  exact (hr.modifyNic n fun _ _ => rfl).recordIf _ _

theorem accept (i : Direction) : Agrees g (b.accept n i f) (b'.accept n i f) := by
  unfold Bench.accept
  dsimp only
  rw [h.gate, h.ring]
  split
  · exact .intro (h.modifyNic n (Nic.uncounted_countRefused i)) _
  · split
    · exact .intro ((h.modifyNic n (Nic.uncounted_countRefused i)).record _) _
    · next r _ =>
      have hk := (Nic.uncounted_setRing i r).comp (Nic.uncounted_countAccepted i f.length)
      exact .intro ((h.modifyNic n hk).record _) _

theorem take (i : Direction) : Agrees g (b.take n i) (b'.take n i) := by
  unfold Bench.take
  dsimp only
  rw [h.gate, h.ring]
  split
  · split
    · exact .intro h _
    · next r _ => exact .intro ((h.modifyNic n (Nic.uncounted_setRing i r)).record _) _
  · exact .intro h _

theorem transmit : Agrees g (b.transmit n f) (b'.transmit n f) := by
  have ha := h.accept n f .transmit
  unfold Bench.transmit
  generalize b.accept n .transmit f = r at ha ⊢
  generalize b'.accept n .transmit f = r' at ha ⊢
  cases ha with
  | intro h₁ a =>
    cases a with
    | error e => exact .intro h₁ _
    | ok u => exact .intro (h₁.raiseHook n) _

theorem deliver : Agrees g (b.deliver n f) (b'.deliver n f) := by
  have ha := h.accept n f .receive
  unfold Bench.deliver
  generalize b.accept n .receive f = r at ha ⊢
  generalize b'.accept n .receive f = r' at ha ⊢
  cases ha with
  | intro h₁ a =>
    cases a with
    | error e => exact .intro h₁ _
    | ok u =>
      have hi := h₁.interrupt n
      dsimp only
      rw [hi.answer]
      exact .intro (hi.bench.recordIf _ _) _

end Cards

end Alike

/-- What is true of a gap that was closed is true of it. -/
theorem Agrees.reopen {r r' : Bench × β} (h : Agrees { g with stale := none } r r') :
    Agrees g r r' :=
  .of { h.bench with signal_eq := fun t _ => h.bench.signal_eq t nofun } h.answer

/-! ## Transfers -/

section Transfers

variable {next : Bench → Bench × Option Frame} {sink : Sink α} {x x' : Bench × α}

/-- A sink that does the same on benches that cannot be told apart. -/
def Fair (g : Gap) (sink : Sink α) : Prop :=
  ∀ f x x', Agrees g x x' → Agrees g (sink f x) (sink f x')

theorem Agrees.pump (hn : ∀ b b', Alike g b b' → Agrees g (next b) (next b')) (hs : Fair g sink)
    (budget : Nat) (hx : Agrees g x x') :
    Agrees g (pump next sink budget x).1 (pump next sink budget x').1 ∧
      (pump next sink budget x').2 = (pump next sink budget x).2 := by
  induction budget generalizing x x' with
  | zero => exact ⟨hx, rfl⟩
  | succ budget ih =>
    cases hx with
    | @intro b b' h a =>
      have ht := hn b b' h
      rw [Bench.pump, Bench.pump]
      generalize next b = r at ht ⊢
      generalize next b' = r' at ht ⊢
      cases ht with
      | intro h₁ found =>
        cases found with
        | none => exact ⟨.intro h₁ a, rfl⟩
        | some f =>
          obtain ⟨hp, hk⟩ := ih (hs f _ _ (.intro h₁ a))
          exact ⟨hp, congrArg (· + 1) hk⟩

theorem Alike.startPass (h : Alike g b b') (c : Handle PollContext) :
    Alike g (b.startPass c) (b'.startPass c) :=
  (h.setPhase c .draining).record _

theorem Alike.endPass (h : Alike g b b') (c : Handle PollContext) (n : Handle Nic)
    (handled budget : Nat) : Alike g (b.endPass c n handled budget) (b'.endPass c n handled budget) := by
  unfold Bench.endPass
  dsimp only
  split
  · exact ((h.setPhase c .idle).rearm n).record _
  · exact (h.request c).record _

theorem Agrees.drain (n : Handle Nic) (budget : Nat) (hs : Fair g sink) (hx : Agrees g x x') :
    Agrees g (drain n budget sink x).1 (drain n budget sink x').1 ∧
      (drain n budget sink x').2 = (drain n budget sink x).2 :=
  hx.pump (fun _ _ h => h.take n .transmit) hs budget

theorem Agrees.poll (c : Handle PollContext) (n : Handle Nic) (budget : Nat) (hs : Fair g sink)
    (hx : Agrees g x x') : Agrees g (poll c n budget sink x).1 (poll c n budget sink x').1 ∧
      (poll c n budget sink x').2 = (poll c n budget sink x).2 := by
  cases hx with
  | @intro b b' h a =>
    unfold Bench.poll
    dsimp only
    rw [h.context]
    split
    · obtain ⟨hp, hk⟩ := (Agrees.intro (h.startPass c) a).pump (fun _ _ h => h.take n .receive) hs
        budget
      dsimp only
      rw [hk]
      exact ⟨.of (hp.bench.endPass c n _ budget) hp.answer, rfl⟩
    · exact ⟨.intro (h.record _) a, rfl⟩
    · exact ⟨.intro (h.record _) a, rfl⟩

end Transfers

/-! ## Devices -/

section Devices

variable {sink : Sink α} {x x' : Bench × α}

theorem Alike.recordDevice (h : Alike g b b') (d : Handle Device) (e : DeviceEvent) :
    Alike g (b.recordDevice d e) (b'.recordDevice d e) := by
  unfold Bench.recordDevice
  rw [h.device]
  exact h.record _

theorem Alike.countDevice (h : Alike g b b') (d : Handle Device) (k : Counters → Counters) :
    Alike g (b.countDevice d k) (b'.countDevice d k) :=
  h.modifyDevice d _

theorem Alike.openDevice (h : Alike g b b') (d : Handle Device) :
    Alike g (b.openDevice d) (b'.openDevice d) := by
  unfold Bench.openDevice
  dsimp only
  rw [h.device]
  exact ((((h.recordDevice d .opened).setUp _).enableContext _).installHandler _ _).bringUp _

theorem Alike.closeDevice (h : Alike g b b') (d : Handle Device) :
    Agrees g (b.closeDevice d) (b'.closeDevice d) := by
  have hc := (((h.recordDevice d .closed).shutDown (b.device d).nic).removeHandler
    (b.device d).nic).disableContext (b.device d).context
  unfold Bench.closeDevice
  dsimp only
  rw [h.device]
  generalize Bench.disableContext _ (b.device d).context = r at hc ⊢
  generalize Bench.disableContext _ (b.device d).context = r' at hc ⊢
  cases hc with
  | intro h₁ a =>
    cases a with
    | error e => exact .intro h₁ _
    | ok u =>
      have ht := h₁.tearDown (b.device d).nic
      dsimp only
      rw [ht.answer]
      exact .intro ((ht.bench.recordIf _ _).countDevice d _) _

theorem Alike.setAddress (h : Alike g b b') (d : Handle Device) (a : MacAddress) :
    Agrees g (b.setAddress d a) (b'.setAddress d a) := by
  unfold Bench.setAddress
  split
  · exact .intro ((h.recordDevice d _).modifyDevice d _) _
  · exact .intro h _

theorem Alike.send (h : Alike g b b') (d : Handle Device) (f : Frame) :
    Agrees g (b.send d f) (b'.send d f) := by
  have h₁ := h.recordDevice d (.frameSeen Direction.transmit.word f)
  have ht := h₁.transmit ((b.recordDevice d (.frameSeen Direction.transmit.word f)).device d).nic f
  unfold Bench.send
  dsimp only
  rw [h₁.device]
  split
  · exact .intro ((h₁.recordDevice d _).countDevice d _) _
  · generalize Bench.transmit _ _ f = r at ht ⊢
    generalize Bench.transmit _ _ f = r' at ht ⊢
    cases ht with
    | intro h₂ a =>
      cases a with
      | error e => exact .intro (h₂.countDevice d _) _
      | ok u => exact .intro (h₂.countDevice d _) _

theorem Fair.counting (d : Handle Device) (hs : Fair g sink) : Fair g (counting d sink) := by
  intro f x x' hx
  cases hx with
  | intro h a => exact hs f _ _ (.intro ((h.recordDevice d _).countDevice d _) a)

theorem Agrees.pollDevice (d : Handle Device) (hs : Fair g sink) (hx : Agrees g x x') :
    Agrees g (pollDevice d sink x).1 (pollDevice d sink x').1 ∧
      (pollDevice d sink x').2 = (pollDevice d sink x).2 := by
  cases hx with
  | intro h a =>
    unfold Bench.pollDevice
    dsimp only
    rw [h.device]
    exact (Agrees.intro (h.recordDevice d .polled) a).poll _ _ _ (hs.counting d)

end Devices

/-! ## Peers -/

section Peers

variable {wire : Sink α} {x x' : Bench × α}

theorem Alike.countPeer (h : Alike g b b') (p : Handle Peer) (k : Counters → Counters) :
    Alike g (b.countPeer p k) (b'.countPeer p k) :=
  h.modifyPeer p _

theorem Alike.detachPeer (h : Alike g b b') (p : Handle Peer) :
    Alike g (b.detachPeer p) (b'.detachPeer p) := by
  unfold Bench.detachPeer
  rw [h.peer]
  exact h.clearHookIf _ _

theorem Alike.peerTransmit (h : Alike g b b') (p : Handle Peer) (f : Frame) :
    Agrees g (b.peerTransmit p f) (b'.peerTransmit p f) := by
  have hd := h.deliver (b.peer p).nic f
  unfold Bench.peerTransmit
  rw [h.peer]
  generalize Bench.deliver b _ f = r at hd ⊢
  generalize Bench.deliver b' _ f = r' at hd ⊢
  cases hd with
  | intro h₁ a =>
    cases a with
    | error e => exact .intro ((h₁.countPeer p _).record _) _
    | ok u => exact .intro (h₁.countPeer p _) _

theorem Fair.collecting (p : Handle Peer) (hw : Fair g wire) : Fair g (collecting p wire) := by
  intro f x x' hx
  cases hx with
  | intro h a => exact hw f _ _ (.intro (h.countPeer p _) a)

theorem Agrees.pollPeer (p : Handle Peer) (budget : Nat) (hw : Fair g wire) (hx : Agrees g x x') :
    Agrees g (pollPeer p budget wire x).1 (pollPeer p budget wire x').1 ∧
      (pollPeer p budget wire x').2 = (pollPeer p budget wire x).2 := by
  obtain ⟨hd, hk⟩ := hx.drain (x.1.peer p).nic budget (hw.collecting p)
  unfold Bench.pollPeer
  dsimp only
  rw [hx.bench.peer, hk]
  split
  · exact ⟨.of ((hd.bench.record _).countPeer p _) hd.answer, rfl⟩
  · exact ⟨.of hd.bench hd.answer, rfl⟩

end Peers

/-! ## New parts -/

section New

variable (h : Alike g b b')

include h

theorem Alike.addNic (x : Nic) :
    (b'.addNic x).1 = (b.addNic x).1 ∧ Alike g (b.addNic x).2 (b'.addNic x).2 := by
  have hn : (b'.addNic x).1 = (b.addNic x).1 := congrArg Handle.mk h.nics
  refine ⟨hn, { h with
    nics := congrArg (· + 1) h.nics
    nic := fun m => ?_
    uncounted := fun m hm => h.uncounted m fun hb => hm (Nat.lt_succ_of_lt hb) }⟩
  by_cases hm : m = (b.addNic x).1
  · have hz : g.counted m = Counters.zero :=
      h.uncounted m fun hb => Nat.ne_of_lt hb (congrArg Handle.index hm)
    have hnew : ∀ b : Bench, (b.addNic x).2.nic (b.addNic x).1 = x := fun b => nic_of_addNic rfl
    rw [hz, Nic.since_zero, hm, hnew b, ← hn, hnew b']
  · rw [show (b.addNic x).2.nic m = b.nic m from b.nics.get_add_of_ne x hm,
      show (b'.addNic x).2.nic m = b'.nic m from b'.nics.get_add_of_ne x (hn ▸ hm), h.nic]

theorem Alike.addSignal (x : Signal) :
    (b'.addSignal x).1 = (b.addSignal x).1 ∧ Alike g (b.addSignal x).2 (b'.addSignal x).2 := by
  have hs : (b'.addSignal x).1 = (b.addSignal x).1 := congrArg Handle.mk h.signals
  have hnew : ∀ t, (t = (b.addSignal x).1 ∧ (b.addSignal x).2.signal t = x ∧
      (b'.addSignal x).2.signal t = x) ∨ ((b.addSignal x).2.signal t = b.signal t ∧
        (b'.addSignal x).2.signal t = b'.signal t) := by
    intro t
    by_cases ht : t = (b.addSignal x).1
    · refine Or.inl ⟨ht, ?_, ?_⟩
      · rw [ht]
        exact b.signals.get_add_self x
      · rw [ht, ← hs]
        exact b'.signals.get_add_self x
    · exact Or.inr ⟨b.signals.get_add_of_ne x ht, b'.signals.get_add_of_ne x (hs ▸ ht)⟩
  refine ⟨hs, { h with
    signals := congrArg (· + 1) h.signals
    signal := fun t => ?_
    signal_eq := fun t hg => ?_ }⟩
  · rcases hnew t with ⟨-, ht, ht'⟩ | ⟨ht, ht'⟩
    · rw [ht, ht']
      exact .refl x
    · rw [ht, ht']
      exact h.signal t
  · rcases hnew t with ⟨-, ht, ht'⟩ | ⟨ht, ht'⟩
    · rw [ht, ht']
    · rw [ht, ht', h.signal_eq t hg]

theorem Alike.addContext (s : Handle Signal) :
    (b'.addContext s).1 = (b.addContext s).1 ∧
      Alike g (b.addContext s).2 (b'.addContext s).2 :=
  ⟨congrArg (fun k => (k.add { request := s }).1) h.contexts,
    { h with contexts := congrArg (fun k => (k.add { request := s }).2) h.contexts }⟩

theorem Alike.addDevice (x : Settings) (n : Handle Nic) (s : Handle Signal) :
    (b'.addDevice x n s).1 = (b.addDevice x n s).1 ∧
      Alike g (b.addDevice x n s).2 (b'.addDevice x n s).2 := by
  obtain ⟨hc, h₁⟩ := h.addContext s
  unfold Bench.addDevice
  dsimp only
  rw [hc]
  exact ⟨by rw [h₁.devices], { h₁ with devices := by dsimp only; rw [h₁.devices] }⟩

theorem Alike.attachPeer (n : Handle Nic) :
    (b'.attachPeer n).1 = (b.attachPeer n).1 ∧
      Alike g (b.attachPeer n).2 (b'.attachPeer n).2 := by
  obtain ⟨hs, h₁⟩ := h.addSignal (.flag false)
  have h₂ := h₁.setHook n (b.addSignal (.flag false)).1
  unfold Bench.attachPeer
  dsimp only
  rw [hs]
  exact ⟨by rw [h₂.peers], { h₂ with peers := by dsimp only; rw [h₂.peers] }⟩

end New

end Bench
end SoftNic
