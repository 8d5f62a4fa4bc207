import SoftNic.Proofs.CallTrace
import SoftNic.Proofs.Twins

/-! # Programs

A program is whoever works with a bench.  It does one operation after another, is told
what each answers, and decides by that what to do next; now and then it looks at a part.
When it runs a transfer, the frames are handed to a program too, which has a memory of
its own and may do all of this in turn.  Programs are trees, so every run comes to an
end.

Programs are what cannot tell two benches apart: `Program.run_agrees` says that the same
program, run on two benches that are alike but for a gap, is told the same, ends with
the same result, and leaves the benches alike.  Only if the gap is in a signal must the
program leave alone what it is told of that signal, until it has taken it
(`Program.Overlooks`).
-/
namespace SoftNic

open Bench

/-! ## Operations -/

/-- What an operation on a card answers. -/
def CardOp.Answer : CardOp → Type
  | .tearDown => Leftovers
  | .transmit _ => Except Rejection Unit
  | .deliver _ => Except Rejection Unit
  | .take _ => Option Frame
  | _ => Unit

/-- Do something with a card and hear the answer. -/
def CardOp.run (n : Handle Nic) (b : Bench) : (op : CardOp) → Bench × op.Answer
  | .setUp => (b.setUp n, ())
  | .bringUp => (b.bringUp n, ())
  | .shutDown => (b.shutDown n, ())
  | .tearDown => b.tearDown n
  | .rearm => (b.rearm n, ())
  | .mask => (b.mask n, ())
  | .removeHandler => (b.removeHandler n, ())
  | .transmit f => b.transmit n f
  | .deliver f => b.deliver n f
  | .take i => b.take n i

/-- What an operation on a card or a context answers. -/
def BenchOp.Answer : BenchOp → Type
  | .card _ op => op.Answer
  | .disable _ => Except Fault Unit
  | .schedule _ => Bool
  | _ => Unit

/-- Do something with a card or a context and hear the answer. -/
def BenchOp.run (b : Bench) : (op : BenchOp) → Bench × op.Answer
  | .card n op => op.run n b
  | .installHandler n as => (b.installHandler n as, ())
  | .setHook n s => (b.setHook n s, ())
  | .clearHook n => (b.clearHook n, ())
  | .enable c => (b.enableContext c, ())
  | .disable c => b.disableContext c
  | .schedule c => b.schedule c

/-- One operation of a program. -/
inductive Op
  | call (op : BenchOp)
  | clearHookIf (n : Handle Nic) (s : Handle Signal)
  | raise (s : Handle Signal)
  | takeSignal (s : Handle Signal)
  | openDevice (d : Handle Device)
  | closeDevice (d : Handle Device)
  | setAddress (d : Handle Device) (a : MacAddress)
  | send (d : Handle Device) (f : Frame)
  | detachPeer (p : Handle Peer)
  | peerTransmit (p : Handle Peer) (f : Frame)
  | newNic (tx rx : Nat)
  | newSignal (x : Signal)
  | newContext (request : Handle Signal)
  | newDevice (x : Settings) (n : Handle Nic) (request : Handle Signal)
  | buildDevice (x : Settings) (request : Handle Signal)
  | attachPeer (n : Handle Nic)
  /-- Look at a card.  Its counters are not shown. -/
  | seeNic (n : Handle Nic)
  | seeContext (c : Handle PollContext)
  | seeDevice (d : Handle Device)
  | seePeer (p : Handle Peer)
  | seeSignal (s : Handle Signal)

/-- The bench on which something was made, or the old one if it was refused. -/
def Bench.made {ε α : Type} (b : Bench) : Except ε (α × Bench) → Bench × Except ε α
  | .error e => (b, .error e)
  | .ok (a, b') => (b', .ok a)

namespace Op

/-- What an operation answers. -/
def Answer : Op → Type
  | call op => op.Answer
  | takeSignal _ => Bool
  | closeDevice _ => Except Fault Unit
  | setAddress _ _ => Except Refusal Unit
  | send _ _ => Except Refusal Unit
  | peerTransmit _ _ => Except Refusal Unit
  | newNic _ _ => Except Fault (Handle Nic)
  | newSignal _ => Handle Signal
  | newContext _ => Handle PollContext
  | newDevice _ _ _ => Except ConfigError (Handle Device)
  | buildDevice _ _ => Except ConfigFailure (Handle Device)
  | attachPeer _ => Handle Peer
  | seeNic _ => Nic
  | seeContext _ => PollContext
  | seeDevice _ => Device
  | seePeer _ => Peer
  | seeSignal _ => Signal
  | _ => Unit

/-- Do an operation and hear the answer. -/
def run (b : Bench) : (q : Op) → Bench × q.Answer
  | call op => op.run b
  | clearHookIf n s => (b.clearHookIf n s, ())
  | raise s => (b.raise s, ())
  | takeSignal s => b.takeSignal s
  | openDevice d => (b.openDevice d, ())
  | closeDevice d => b.closeDevice d
  | setAddress d a => b.setAddress d a
  | send d f => b.send d f
  | detachPeer p => (b.detachPeer p, ())
  | peerTransmit p f => b.peerTransmit p f
  | newNic tx rx => b.made ((Nic.ofSizes tx rx).map b.addNic)
  | newSignal x => (b.addSignal x).swap
  | newContext request => (b.addContext request).swap
  | newDevice x n request => b.made (b.newDevice x n request)
  | buildDevice x request => b.made (b.buildDevice x request)
  | attachPeer n => (b.attachPeer n).swap
  | seeNic n => (b, { b.nic n with counters := {} })
  | seeContext c => (b, b.context c)
  | seeDevice d => (b, b.device d)
  | seePeer p => (b, b.peer p)
  | seeSignal s => (b, b.signal s)

/-- The signal that an operation asks about. -/
def reads : Op → Option (Handle Signal)
  | takeSignal s => some s
  | seeSignal s => some s
  | _ => none

end Op

/-- A transfer of frames out of a ring. -/
inductive Transfer
  /-- A card's transmit ring, on behalf of nobody. -/
  | card (n : Handle Nic) (budget : Nat)
  /-- A card's transmit ring, on behalf of a peer. -/
  | peer (p : Handle Peer) (budget : Nat)
  /-- A card's receive ring, under a context. -/
  | context (c : Handle PollContext) (n : Handle Nic) (budget : Nat)
  /-- The receive ring of a device's card, under the device's context. -/
  | device (d : Handle Device)

namespace Transfer

/-- What a transfer answers. -/
def Answer : Transfer → Type
  | card _ _ => Nat
  | peer _ _ => Nat
  | context _ _ _ => Except Fault Pass
  | device _ => Except Fault Pass

/-- Run a transfer and hear the answer. -/
def run {σ : Type} (sink : Sink σ) (x : Bench × σ) : (t : Transfer) → (Bench × σ) × t.Answer
  | card n budget => drain n budget sink x
  | peer p budget => pollPeer p budget sink x
  | context c n budget => poll c n budget sink x
  | device d => pollDevice d sink x

end Transfer

/-! ## Programs -/

/-- A program that ends with a result of a given type. -/
inductive Program : Type → Type 1
  | done {α : Type} (a : α) : Program α
  | op {α : Type} (q : Op) (next : q.Answer → Program α) : Program α
  /-- A transfer.  The program `each` is run for every frame that is handed over; its
  result is what it remembers until the next one. -/
  | transfer {α σ : Type} (t : Transfer) (each : Frame → σ → Program σ) (start : σ)
    (next : t.Answer → σ → Program α) : Program α

namespace Program

/-- Run a program. -/
def run {α : Type} : Program α → Bench → Bench × α
  | done a, b => (b, a)
  | op q next, b => (next (q.run b).2).run (q.run b).1
  | transfer t each start next, b =>
    let r := t.run (fun f x => (each f x.2).run x.1) (b, start)
    (next r.2 r.1.2).run r.1.1

/-- A program overlooks a signal if it goes on in the same way whatever it is told of it,
at least until it has taken it. -/
def Overlooks {α : Type} (s : Handle Signal) : Program α → Prop
  | done _ => True
  | op q next => (q.reads = some s → ∀ a a', next a = next a') ∧
    (q ≠ .takeSignal s → ∀ a, (next a).Overlooks s)
  | transfer _ each _ next => (∀ f x, (each f x).Overlooks s) ∧ ∀ a x, (next a x).Overlooks s

end Program

/-! ## What programs are told -/

section Agreement

variable {g : Gap} {b b' : Bench} {α σ : Type}

theorem CardOp.run_agrees (h : Alike g b b') (n : Handle Nic) (op : CardOp) :
    Agrees g (op.run n b) (op.run n b') := by
  cases op with
  | setUp => exact .intro (h.setUp n) ()
  | bringUp => exact .intro (h.bringUp n) ()
  | shutDown => exact .intro (h.shutDown n) ()
  | tearDown => exact h.tearDown n
  | rearm => exact .intro (h.rearm n) ()
  | mask => exact .intro (h.mask n) ()
  | removeHandler => exact .intro (h.removeHandler n) ()
  | transmit f => exact h.transmit n f
  | deliver f => exact h.deliver n f
  | take i => exact h.take n i

theorem BenchOp.run_agrees (h : Alike g b b') (op : BenchOp) : Agrees g (op.run b) (op.run b') := by
  cases op with
  | card n op => exact op.run_agrees h n
  | installHandler n as => exact .intro (h.installHandler n as) ()
  | setHook n s => exact .intro (h.setHook n s) ()
  | clearHook n => exact .intro (h.clearHook n) ()
  | enable c => exact .intro (h.enableContext c) ()
  | disable c => exact h.disableContext c
  | schedule c => exact h.schedule c

theorem Bench.Alike.newDevice (h : Alike g b b') (x : Settings) (n : Handle Nic)
    (s : Handle Signal) : Agrees g (b.made (b.newDevice x n s)) (b'.made (b'.newDevice x n s)) := by
  unfold Bench.newDevice
  cases x.checked with
  | error e => exact .intro h (Except.error e)
  | ok y => exact .of (h.addDevice y n s).2 (congrArg Except.ok (h.addDevice y n s).1)

theorem Bench.Alike.buildDevice (h : Alike g b b') (x : Settings) (s : Handle Signal) :
    Agrees g (b.made (b.buildDevice x s)) (b'.made (b'.buildDevice x s)) := by
  unfold Bench.buildDevice
  cases x.checked with
  | error e => exact .intro h (Except.error (ConfigFailure.refused e))
  | ok y =>
    dsimp only
    cases Nic.ofSizes y.txRing y.rxRing with
    | error f => exact .intro h (Except.error (ConfigFailure.fault f))
    | ok z =>
      obtain ⟨hn, h₁⟩ := h.addNic z
      dsimp only
      rw [hn]
      unfold Bench.newDevice
      cases y.checked with
      | error e => exact .intro h (Except.error (ConfigFailure.refused e))
      | ok w =>
        obtain ⟨hd, h₂⟩ := h₁.addDevice w (b.addNic z).1 s
        exact .of h₂ (congrArg Except.ok hd)

/-- Every operation answers the same, unless it asks about the stale signal. -/
theorem Op.run_agrees (h : Alike g b b') (q : Op) (hq : ∀ s, q.reads = some s → g.stale ≠ some s) :
    Agrees g (q.run b) (q.run b') := by
  cases q with
  | call op => exact op.run_agrees h
  | clearHookIf n s => exact .intro (h.clearHookIf n s) ()
  | raise s => exact .intro (h.raise s) ()
  | takeSignal s => exact h.takeSignal s (hq s rfl)
  | openDevice d => exact .intro (h.openDevice d) ()
  | closeDevice d => exact h.closeDevice d
  | setAddress d a => exact h.setAddress d a
  | send d f => exact h.send d f
  | detachPeer p => exact .intro (h.detachPeer p) ()
  | peerTransmit p f => exact h.peerTransmit p f
  | newNic tx rx =>
    show Agrees g (b.made ((Nic.ofSizes tx rx).map b.addNic))
      (b'.made ((Nic.ofSizes tx rx).map b'.addNic))
    cases Nic.ofSizes tx rx with
    | error e => exact .intro h (Except.error e)
    | ok x => exact .of (h.addNic x).2 (congrArg Except.ok (h.addNic x).1)
  | newSignal x => exact .of (h.addSignal x).2 (h.addSignal x).1
  | newContext s => exact .of (h.addContext s).2 (h.addContext s).1
  | newDevice x n s => exact h.newDevice x n s
  | buildDevice x s => exact h.buildDevice x s
  | attachPeer n => exact .of (h.attachPeer n).2 (h.attachPeer n).1
  | seeNic n =>
    refine .of h ?_
    show ({ b'.nic n with counters := {} } : Nic) = { b.nic n with counters := {} }
    rw [h.nic]
    rfl
  | seeContext c => exact .of h (h.context c)
  | seeDevice d => exact .of h (h.device d)
  | seePeer p => exact .of h (h.peer p)
  | seeSignal s => exact .of h (h.signal_eq s (hq s rfl))

theorem Transfer.run_agrees (t : Transfer) {sink : Sink σ} {x x' : Bench × σ} (hs : Fair g sink)
    (hx : Agrees g x x') :
    Agrees g (t.run sink x).1 (t.run sink x').1 ∧ (t.run sink x').2 = (t.run sink x).2 := by
  cases t with
  | card n budget => exact hx.drain n budget hs
  | peer p budget => exact hx.pollPeer p budget hs
  | context c n budget => exact hx.poll c n budget hs
  | device d => exact hx.pollDevice d hs

/-- **No program can tell two benches apart** that are alike but for a gap, if it
overlooks the signal of the gap. -/
theorem Program.run_agrees (P : Program α) (hP : ∀ s, g.stale = some s → P.Overlooks s)
    (h : Alike g b b') : Agrees g (P.run b) (P.run b') := by
  induction P generalizing g b b' with
  | done a => exact .intro h a
  | op q next ih =>
    show Agrees g ((next (q.run b).2).run (q.run b).1) ((next (q.run b').2).run (q.run b').1)
    by_cases hr : ∃ s, q.reads = some s ∧ g.stale = some s
    · obtain ⟨s, hq, hs⟩ := hr
      obtain ⟨hsame, hnext⟩ := hP s hs
      rw [hsame hq (q.run b').2 (q.run b).2]
      cases q with
      | takeSignal t =>
        obtain rfl := Option.some.inj hq
        refine (ih _ (fun u hu => ?_) (h.takeSignal_stale t hs)).reopen
        cases hu
      | seeSignal t =>
        refine ih _ (fun u hu => ?_) h
        obtain rfl := Option.some.inj (hs.symm.trans hu)
        exact hnext nofun _
      | _ => cases hq
    · have ha := q.run_agrees h fun s hq hs => hr ⟨s, hq, hs⟩
      rw [ha.answer]
      refine ih _ (fun s hs => (hP s hs).2 (fun hq => hr ⟨s, ?_, hs⟩) _) ha.bench
      rw [hq]
      rfl
  | transfer t each start next ihe ihn =>
    have hs : Fair g fun f x => (each f x.2).run x.1 := by
      intro f x x' hx
      cases hx with
      | intro h a => exact ihe f a (fun s hs => (hP s hs).1 f a) h
    obtain ⟨hx, ha⟩ := t.run_agrees hs (.intro h start)
    rw [run, run, ha, hx.answer]
    exact ihn _ _ (fun s hs => (hP s hs).2 _ _) hx.bench

end Agreement

/-! ## Passes -/

namespace Bench

variable {b b' b'' : Bench} {c : Handle PollContext} {n : Handle Nic}

/-- No pass is running on a bench that was not running on another. -/
def NoNewPass (b b' : Bench) : Prop :=
  ∀ c, (b'.context c).phase = .draining → (b.context c).phase = .draining

namespace NoNewPass

theorem refl (b : Bench) : NoNewPass b b := fun _ => id

theorem trans (h : NoNewPass b b') (k : NoNewPass b' b'') : NoNewPass b b'' :=
  fun c hc => h c (k c hc)

theorem of_contexts (h : b'.contexts = b.contexts) : NoNewPass b b' := by
  intro c hc
  rwa [context, h] at hc

theorem beside (h : NoNewPass b b') (hc : b''.contexts = b'.contexts) : NoNewPass b b'' :=
  h.trans (.of_contexts hc)

theorem after (h : NoNewPass b' b'') (hc : b'.contexts = b.contexts) : NoNewPass b b'' :=
  (NoNewPass.of_contexts hc).trans h

theorem of_asked (h : ∀ c, Asked c b b') : NoNewPass b b' := by
  intro c hc
  rcases h c with ⟨hp, -⟩ | ⟨-, hs, -⟩
  · rwa [hp] at hc
  · cases hc.symm.trans hs

/-- A context was put in the place of another, and its pass is not running. -/
theorem of_put {x : PollContext} {p : PollPhase}
    (h : b'.contexts = b.contexts.set c { x with phase := p }) (hp : p ≠ .draining) :
    NoNewPass b b' := by
  intro k hk
  by_cases he : k = c
  · rw [he, context, h, Store.get_set_self] at hk
    exact absurd hk hp
  · rwa [context, h, Store.get_set_of_ne _ he] at hk

theorem addContext (b : Bench) (s : Handle Signal) : NoNewPass b (b.addContext s).2 := by
  intro k hk
  by_cases he : k = (b.addContext s).1
  · have hn : (b.addContext s).2.context (b.addContext s).1 = { request := s } :=
      b.contexts.get_add_self _
    rw [he, hn] at hk
    cases hk
  · rwa [show (b.addContext s).2.context k = b.context k from b.contexts.get_add_of_ne _ he] at hk

theorem enableContext (b : Bench) (c : Handle PollContext) : NoNewPass b (b.enableContext c) := by
  intro k hk
  by_cases he : k = c
  · subst he
    rw [phase_enableContext] at hk
    exact ((PollPhase.enabled_eq_iff (by decide)).mp hk).1
  · rwa [context_enableContext_of_ne he] at hk

theorem disableContext (b : Bench) (c : Handle PollContext) :
    NoNewPass b (b.disableContext c).1 := by
  by_cases hd : (b.context c).phase = .draining
  · rw [disableContext_of_draining hd]
    exact .refl b
  · obtain ⟨log, he⟩ := disableContext_eq hd
    exact .of_put (x := b.context c) (by rw [he]) (by decide)

end NoNewPass

theorem OnlyCard.noNewPass (h : OnlyCard n b b') : NoNewPass b b' :=
  .of_contexts h.contexts

theorem noNewPass_benchStep (b : Bench) (op : BenchOp) : NoNewPass b (benchStep b op) := by
  cases op with
  | card n op => exact .of_asked fun c => asked_cardStep c n b op
  | installHandler n as => exact (onlyCard_installHandler b n as).noNewPass
  | setHook n s => exact .of_contexts rfl
  | clearHook n => exact .of_contexts rfl
  | enable c => exact .enableContext b c
  | disable c => exact .disableContext b c
  | schedule c => exact .of_asked fun k => asked_schedule k b c

theorem noNewPass_clearHookIf (b : Bench) (n : Handle Nic) (s : Handle Signal) :
    NoNewPass b (b.clearHookIf n s) := by
  unfold clearHookIf
  split
  · exact .of_contexts rfl
  · exact .refl b

theorem noNewPass_openDevice (b : Bench) (d : Handle Device) : NoNewPass b (b.openDevice d) := by
  unfold openDevice
  dsimp only
  refine NoNewPass.trans ?_ (onlyCard_bringUp _ _).noNewPass
  refine NoNewPass.trans ?_ (onlyCard_installHandler _ _ _).noNewPass
  refine NoNewPass.trans ?_ (.enableContext _ _)
  exact (onlyCard_setUp _ _).noNewPass.after rfl

theorem noNewPass_closeDevice (b : Bench) (d : Handle Device) : NoNewPass b (b.closeDevice d).1 := by
  have ho : OnlyCard (b.device d).nic b
      (((b.recordDevice d .closed).shutDown (b.device d).nic).removeHandler (b.device d).nic) :=
    onlyCard_closing b _ _
  by_cases hp : (b.context (b.device d).context).phase = .draining
  · unfold closeDevice
    dsimp only
    rw [Bench.disableContext, ho.context_eq, hp]
    exact ho.noNewPass
  · obtain ⟨log, he⟩ := closeDevice_afterClosing hp
    rw [he]
    exact .of_put (x := b.context (b.device d).context) rfl (by decide)

theorem noNewPass_send (b : Bench) (d : Handle Device) (f : Frame) :
    NoNewPass b (b.send d f).1 := by
  have pass : ∀ e k, NoNewPass b (((b.record e).transmit (b.device d).nic f).1.countDevice d k) :=
    fun e k => ((NoNewPass.of_asked fun c =>
      asked_transmit c (b.record e) (b.device d).nic f).after rfl).beside rfl
  rcases send_cases (rfl : (b.device d).nic = _) f with
    ⟨-, e, e', hs⟩ | ⟨-, e, ⟨-, hs⟩ | ⟨r, -, hs⟩⟩
  · rw [hs]
    exact .of_contexts rfl
  · rw [hs]
    exact pass e (·.sent f.length)
  · rw [hs]
    exact pass e Counters.sendDropped

theorem noNewPass_peerTransmit (b : Bench) (p : Handle Peer) (f : Frame) :
    NoNewPass b (b.peerTransmit p f).1 := by
  have hd : NoNewPass b (b.deliver (b.peer p).nic f).1 := .of_asked fun c => asked_deliver c b _ f
  rcases peerTransmit_cases (rfl : (b.peer p).nic = _) f with ⟨-, he⟩ | ⟨r, e, -, he⟩
  · rw [he]
    exact hd.beside rfl
  · rw [he]
    exact hd.beside rfl

/-- A pass is over when the poll is. -/
theorem noNewPass_endPass (b : Bench) (c : Handle PollContext) (n : Handle Nic)
    (handled budget : Nat) : NoNewPass (b.setPhase c .idle) (b.endPass c n handled budget) := by
  unfold endPass
  dsimp only
  split
  · exact (NoNewPass.of_asked fun k => asked_rearm k (b.setPhase c .idle) n).beside rfl
  · have he : b.contexts.set c { b.context c with phase := .scheduled } =
        (b.contexts.set c { b.context c with phase := .idle }).set c
          { b.context c with phase := .scheduled } := (b.contexts.set_set c _ _).symm
    exact .of_put (x := b.context c) he (by decide)

section Transfers

variable {γ : Type} {next : Bench → Bench × Option Frame} {sink : Sink γ}

theorem noNewPass_pump (hn : ∀ b, NoNewPass b (next b).1) (hs : ∀ f y, NoNewPass y.1 (sink f y).1)
    (budget : Nat) (x : Bench × γ) : NoNewPass x.1 (pump next sink budget x).1.1 :=
  pump_invariant (P := fun y => NoNewPass x.1 y.1) (fun b _ hb _ => hb.trans (hn b))
    (fun b _ f hb _ => (hb.trans (hn b)).trans (hs f _)) budget (.refl x.1)

theorem noNewPass_poll (hs : ∀ f y, NoNewPass y.1 (sink f y).1) (c : Handle PollContext)
    (n : Handle Nic) (budget : Nat) (x : Bench × γ) :
    NoNewPass x.1 (poll c n budget sink x).1.1 := by
  obtain ⟨b, g⟩ := x
  have hp := noNewPass_pump (fun b => (onlyCard_take b n .receive).noNewPass) hs budget
    (b.startPass c, g)
  unfold poll
  dsimp only
  split
  · intro k hk
    have hk := noNewPass_endPass _ c n _ budget k hk
    -- The context itself is not draining any more; another was draining before.
    by_cases he : k = c
    · subst he
      rw [context_setPhase] at hk
      cases hk
    · rw [context_setPhase_of_ne he] at hk
      have hk := hp k hk
      rwa [startPass, context_record, context_setPhase_of_ne he] at hk
  · exact .of_contexts rfl
  · exact .of_contexts rfl

end Transfers

/-- What is made on a bench leaves the passes alone if making it does. -/
theorem noNewPass_made {ε α : Type} {r : Except ε (α × Bench)}
    (hr : ∀ a b', r = .ok (a, b') → NoNewPass b b') : NoNewPass b (b.made r).1 := by
  cases r with
  | error e => exact .refl b
  | ok m => exact hr m.1 m.2 rfl

theorem noNewPass_newDevice {x : Settings} {s : Handle Signal} {d : Handle Device}
    (h : b.newDevice x n s = .ok (d, b')) : NoNewPass b b' := by
  unfold newDevice at h
  split at h
  · cases h
  · cases h
    exact (NoNewPass.addContext b s).beside rfl

theorem noNewPass_buildDevice {x : Settings} {s : Handle Signal} {d : Handle Device}
    (h : b.buildDevice x s = .ok (d, b')) : NoNewPass b b' := by
  unfold buildDevice at h
  split at h
  · cases h
  · split at h
    · cases h
    · next z _ =>
      dsimp only at h
      split at h
      · cases h
      · next hm =>
        obtain rfl := Except.ok.inj h
        exact (noNewPass_newDevice hm).after rfl

end Bench

theorem CardOp.run_fst (n : Handle Nic) (b : Bench) (op : CardOp) :
    (op.run n b).1 = cardStep n b op := by
  cases op <;> rfl

theorem BenchOp.run_fst (b : Bench) (op : BenchOp) : (op.run b).1 = benchStep b op := by
  cases op with
  | card n op => exact op.run_fst n b
  | _ => rfl

theorem Op.noNewPass (b : Bench) (q : Op) : NoNewPass b (q.run b).1 := by
  cases q with
  | call op =>
    rw [Op.run, BenchOp.run_fst]
    exact noNewPass_benchStep b op
  | clearHookIf n s => exact noNewPass_clearHookIf b n s
  | openDevice d =>
    dsimp only [Op.run]
    exact noNewPass_openDevice b d
  | closeDevice d => exact noNewPass_closeDevice b d
  | setAddress d a =>
    rw [Op.run, Bench.setAddress]
    split
    · exact .of_contexts rfl
    · exact .refl b
  | send d f => exact noNewPass_send b d f
  | detachPeer p => exact noNewPass_clearHookIf b _ _
  | peerTransmit p f => exact noNewPass_peerTransmit b p f
  | newNic tx rx =>
    refine noNewPass_made fun n b' h => ?_
    cases hx : Nic.ofSizes tx rx with
    | error f =>
      rw [hx] at h
      cases h
    | ok x =>
      rw [hx] at h
      cases h
      exact .of_contexts rfl
  | newContext s => exact .addContext b s
  | newDevice x n s => exact noNewPass_made fun _ _ => noNewPass_newDevice
  | buildDevice x s => exact noNewPass_made fun _ _ => noNewPass_buildDevice
  | _ => exact .of_contexts rfl

theorem Transfer.noNewPass {σ : Type} {sink : Sink σ} (hs : ∀ f y, NoNewPass y.1 (sink f y).1)
    (t : Transfer) (x : Bench × σ) : NoNewPass x.1 (t.run sink x).1.1 := by
  have drain : ∀ n budget (wire : Sink σ) (hw : ∀ f y, NoNewPass y.1 (wire f y).1),
      NoNewPass x.1 (drain n budget wire x).1.1 := fun n budget _ hw =>
    noNewPass_pump (fun b => (onlyCard_take b n .transmit).noNewPass) hw budget x
  cases t with
  | card n budget => exact drain n budget sink hs
  | peer p budget =>
    have hd := drain (x.1.peer p).nic budget (collecting p sink) fun f y => (hs f _).after rfl
    rw [Transfer.run, pollPeer]
    dsimp only
    split
    · exact hd.beside rfl
    · exact hd
  | context c n budget => exact noNewPass_poll hs c n budget x
  | device d =>
    have hc : ∀ f y, NoNewPass y.1 (counting d sink f y).1 := fun f y => (hs f _).after rfl
    exact (noNewPass_poll hc _ _ _ (x.1.recordDevice d .polled, x.2)).after rfl

/-- **Programs end the passes that they begin.**  Between two runs, then, no pass is under
way. -/
theorem Program.noNewPass {α : Type} (P : Program α) (b : Bench) : NoNewPass b (P.run b).1 := by
  induction P generalizing b with
  | done a => exact .refl b
  | op q next ih => exact (q.noNewPass b).trans (ih _ _)
  | transfer t each start next ihe ihn =>
    exact (t.noNewPass (fun f y => ihe f y.2 y.1) (b, start)).trans (ihn _ _ _)

end SoftNic
