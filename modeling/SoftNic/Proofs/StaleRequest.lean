import Mathlib.Data.List.Induction
import SoftNic.Proofs.PrivateSignal

/-! # Requests that outlive their device

A run loop that polls a device only when it was asked to should never find a
context that did not ask.  It can: closing a device withdraws the request of its
context but leaves the signal raised.  While the device is down the request is
stale and harmless, since a disabled context serves it with an empty pass.  Once
the device is opened again the context is idle, and the pass that the signal
still asks for is a fault.

This module proves that this is the only way.  A turn of the loop faults exactly
when the device was closed with a request pending, was opened again before any
turn, and has received nothing since (`Reopened`).  A turn in any other state
finds no request, runs a real pass, or gets the empty pass of a disabled context.

The invariant is `Settled`.  It carries what is known of a stale request in
either state of the device; one operation preserves it, and what the operation
does to the phase of the context and to the signal is told once for each
operation.
-/
namespace SoftNic

/-- What the user of a device does. -/
inductive LoopOp
  | up
  | down
  | send (f : Frame)
  | deliver (f : Frame)
  /-- One step of the run loop. -/
  | turn
  deriving DecidableEq

namespace Bench

variable {γ : Type} {d : Handle Device} {n : Handle Nic} {c : Handle PollContext}
  {s : Handle Signal} {b b' : Bench} {sink : Sink γ}

/-! ## Runs -/

/-- Do one thing. -/
def loopStep (d : Handle Device) (sink : Sink γ) (x : Bench × γ) : LoopOp → Bench × γ
  | .up => (x.1.openDevice d, x.2)
  | .down => ((x.1.closeDevice d).1, x.2)
  | .send f => ((x.1.send d f).1, x.2)
  | .deliver f => ((x.1.deliver (x.1.device d).nic f).1, x.2)
  | .turn => (serve d sink x).1

/-- Do one thing after the other. -/
def loop (d : Handle Device) (sink : Sink γ) (ops : List LoopOp) (x : Bench × γ) : Bench × γ :=
  ops.foldl (loopStep d sink) x

@[simp] theorem loop_append (ops ops' : List LoopOp) (x : Bench × γ) :
    loop d sink (ops ++ ops') x = loop d sink ops' (loop d sink ops x) :=
  List.foldl_append ..

/-! ## The invariant -/

/-- A context is in a phase, and its signal is pending. -/
def Stale (c : Handle PollContext) (s : Handle Signal) (p : PollPhase) (b : Bench) : Prop :=
  (b.context c).phase = p ∧ (b.signal s).isPending = true

theorem not_stale {p q : PollPhase} (h : (b.context c).phase = p) (hne : p ≠ q) :
    ¬ Stale c s q b :=
  fun hq => hne (h.symm.trans hq.1)

theorem stale_congr (hp : (b'.context c).phase = (b.context c).phase)
    (hs : b'.signal s = b.signal s) (p : PollPhase) : Stale c s p b' ↔ Stale c s p b := by
  unfold Stale
  rw [hp, hs]

/-- **What is known of a stale request.**  While the device is down, so is its
card.  While it is up and idle, nothing has arrived and nothing keeps an arrival
from interrupting. -/
structure Settled (d : Handle Device) (n : Handle Nic) (c : Handle PollContext)
    (s : Handle Signal) (b : Bench) : Prop extends Tied d n c s b where
  pass : (b.context c).phase ≠ .draining
  down : Stale c s .disabled b → (b.nic n).gate.isReady = false
  up : Stale c s .idle b → (b.nic n).gate.isReady = true ∧ (b.nic n).gate.armed = true ∧
    (b.nic n).handler = some (passHandler c) ∧ (b.nic n).rx.toList = []

/-- No request is stale while every pending one waits for its pass. -/
theorem Tied.settled (h : Tied d n c s b) (hp : (b.context c).phase ≠ .draining)
    (hq : (b.signal s).isPending = true → (b.context c).phase = .scheduled) :
    Settled d n c s b := by
  refine ⟨h, hp, fun hd => ?_, fun hi => ?_⟩
  · exact absurd hd (not_stale (hq hd.2) (by decide))
  · exact absurd hi (not_stale (hq hi.2) (by decide))

/-- What is said of a pending request is true while there is none. -/
theorem scheduled_of_clear (hno : (b.signal s).isPending = false)
    (hs : (b.signal s).isPending = true) : (b.context c).phase = .scheduled :=
  absurd (hno.symm.trans hs) (by decide)

/-! ## Operations -/

/-- An operation that leaves the phase and the signal as they are, and the
receive side of the card too. -/
theorem Settled.transfer (h : Settled d n c s b) (ht : Tied d n c s b')
    (hp : (b'.context c).phase = (b.context c).phase) (hs : b'.signal s = b.signal s)
    (hx : (b.nic n).SameControl (b'.nic n)) (hr : (b'.nic n).rx = (b.nic n).rx) :
    Settled d n c s b' := by
  refine ⟨ht, by rw [hp]; exact h.pass, fun hq => ?_, fun hq => ?_⟩
  · rw [hx.gate]
    exact h.down ((stale_congr hp hs _).mp hq)
  · rw [hx.gate, hx.handler, hr]
    exact h.up ((stale_congr hp hs _).mp hq)

theorem Settled.openDevice (h : Settled d n c s b) :
    Settled d n c s (b.openDevice d) ∧
      ((b.openDevice d).context c).phase = (b.context c).phase.enabled ∧
      (b.openDevice d).signal s = b.signal s := by
  obtain ⟨ha, hx, hp, hs⟩ := openDevice_spec h.toAttached
  refine ⟨⟨⟨ha, ?_, ?_⟩, ?_, ?_, ?_⟩, hp, hs⟩
  · rw [hx]
    unfold Nic.opened
    split
    · exact h.hook
    · exact h.hook
  · rw [hx]
    exact Or.inl (Nic.handler_opened ..)
  · rw [hp]
    intro hd
    exact h.pass ((PollPhase.enabled_eq_iff (by decide)).mp hd).1
  · intro hq
    exact absurd hq (not_stale hp (PollPhase.enabled_ne_disabled _))
  · rintro ⟨hi, hpend⟩
    rw [hp] at hi
    rw [hs] at hpend
    rw [hx]
    by_cases hd : (b.context c).phase = .disabled
    · -- A request that outlived the device: the card comes up as new.
      rw [Nic.opened_of_not_ready (h.down ⟨hd, hpend⟩)]
      exact ⟨rfl, rfl, rfl, (b.nic n).toList_ring_emptied .receive⟩
    · rw [PollPhase.enabled_of_ne hd] at hi
      obtain ⟨hr, harm, hh, hnil⟩ := h.up ⟨hi, hpend⟩
      rw [Nic.opened_of_ready hr]
      exact ⟨hr, harm, rfl, hnil⟩

theorem Settled.closeDevice (h : Settled d n c s b) :
    Settled d n c s (b.closeDevice d).1 ∧ ((b.closeDevice d).1.context c).phase = .disabled ∧
      (b.closeDevice d).1.signal s = b.signal s := by
  obtain ⟨-, ha, hx, hp, hs⟩ := closeDevice_spec h.toAttached h.pass
  refine ⟨⟨⟨ha, ?_, ?_⟩, ?_, ?_, ?_⟩, hp, hs⟩
  · rw [hx]
    exact h.hook
  · rw [hx]
    exact Or.inr nofun
  · rw [hp]
    decide
  · intro _
    rw [hx]
    rfl
  · intro hq
    exact absurd hq (not_stale hp (by decide))

theorem Settled.send (h : Settled d n c s b) (f : Frame) :
    Settled d n c s (b.send d f).1 ∧ ((b.send d f).1.context c).phase = (b.context c).phase ∧
      (b.send d f).1.signal s = b.signal s := by
  obtain ⟨ha, hx, hr, hc, hs⟩ := send_spec h.toAttached f
  have hctx : ∀ k, (b.send d f).1.context k = b.context k := fun k => by
    rw [context, hc, ← context]
  have hsig : (b.send d f).1.signal s = b.signal s := by
    rcases hs with hs | ⟨t, ht, hs⟩
    · rw [signal, hs, ← signal]
    · have hne : s ≠ t := fun he => h.hook (he ▸ ht)
      rw [signal, hs, ← signal, signal_raise_of_ne hne]
  have ht : Tied d n c s (b.send d f).1 :=
    h.toTied.transfer ha hx.hook hx.handler fun k => by rw [hctx]
  exact ⟨h.transfer ht (by rw [hctx]) hsig hx hr, by rw [hctx], hsig⟩

/-- Delivering a frame: it schedules the context, or phase and signal stay as
they are, and then no stale request of an idle context was waiting for it. -/
theorem Settled.deliver (h : Settled d n c s b) (f : Frame) :
    Settled d n c s (b.deliver n f).1 ∧
      ((((b.deliver n f).1.context c).phase = (b.context c).phase ∧
          (b.deliver n f).1.signal s = b.signal s ∧ ¬ Stale c s .idle b) ∨
        ((b.context c).phase = .idle ∧ ((b.deliver n f).1.context c).phase = .scheduled)) := by
  obtain ⟨ht, hcases⟩ := h.toTied.deliver f
  by_cases hq : Stale c s .idle b
  · -- Nothing has arrived since the device came up, so this frame finds room and is heard.
    obtain ⟨hr, harm, hh, hnil⟩ := h.up hq
    have hp := (deliver_listening h.toAttached hr harm hh hq.1 hnil f).1
    exact ⟨ht.settled (by rw [hp]; decide) fun _ => hp, Or.inr ⟨hq.1, hp⟩⟩
  · rcases hcases with ⟨hc, hs⟩ | ⟨hi, hp⟩
    · have hp : ((b.deliver n f).1.context c).phase = (b.context c).phase := by rw [hc]
      refine ⟨⟨ht, by rw [hp]; exact h.pass, fun hd => ?_, fun hi => ?_⟩, Or.inl ⟨hp, hs, hq⟩⟩
      · rw [isReady_deliver]
        exact h.down ((stale_congr hp hs _).mp hd)
      · exact absurd ((stale_congr hp hs _).mp hi) hq
    · exact ⟨ht.settled (by rw [hp]; decide) fun _ => hp, Or.inr ⟨hi, hp⟩⟩

/-! ## Turns of the run loop -/

/-- A pass is running, and its request was taken. -/
structure Passing (d : Handle Device) (n : Handle Nic) (c : Handle PollContext)
    (s : Handle Signal) (b : Bench) : Prop extends Tied d n c s b where
  phase : (b.context c).phase = .draining
  taken : (b.signal s).isPending = false

/-- A transfer to a sink that only collects. -/
theorem Passing.pump (h : Passing d n c s b) (hsink : ∀ f b g, (sink f (b, g)).1 = b)
    (budget : Nat) (g : γ) :
    Passing d n c s (Bench.pump (·.take n .receive) (counting d sink) budget (b, g)).1.1 := by
  have take : ∀ b, Passing d n c s b → Passing d n c s (b.take n .receive).1 := by
    intro b hb
    have ho := onlyCard_take b n .receive
    have hc := b.take_control n .receive
    refine ⟨hb.toTied.onlyCard ho hc.hook hc.handler, ?_, ?_⟩
    · rw [ho.context_eq, hb.phase]
    · rw [ho.signal_eq, hb.taken]
  refine pump_invariant (P := fun x => Passing d n c s x.1) (fun b _ hb _ => take b hb)
    (fun b g f hb _ => ?_) budget h
  have ht := take b hb
  rw [counting, hsink]
  have htied : Tied d n c s (((b.take n .receive).1.recordDevice d
      (.frameSeen Direction.receive.word f)).countDevice d (·.received f.length)) :=
    ht.toTied.transfer ((ht.toAttached.record _).countDevice d _) rfl rfl fun _ => rfl
  exact ⟨htied, ht.phase, ht.taken⟩

/-- After a pass no request is stale. -/
theorem Passing.endPass (h : Passing d n c s b) (handled budget : Nat) :
    Settled d n c s (b.endPass c n handled budget) ∧
      (((b.endPass c n handled budget).signal s).isPending = true →
        ((b.endPass c n handled budget).context c).phase = .scheduled) := by
  unfold Bench.endPass
  by_cases hk : handled < budget
  · rw [if_pos hk]
    have hidle : ((b.setPhase c .idle).context c).phase = .idle :=
      congrArg PollContext.phase (context_setPhase b c .idle)
    obtain ⟨ht, ⟨hp, hs⟩ | ⟨-, hp⟩⟩ := (h.toTied.setPhase .idle).rearm
    · have hno : (((b.setPhase c .idle).rearm n).signal s).isPending = false := by
        rw [hs]
        exact h.taken
      exact ⟨(ht.record _).settled (by rw [context_record, hp, hidle]; decide)
        (scheduled_of_clear hno), scheduled_of_clear hno⟩
    · exact ⟨(ht.record _).settled (by rw [context_record, hp]; decide) fun _ => hp, fun _ => hp⟩
  · rw [if_neg hk]
    have hp : ((b.request c).context c).phase = .scheduled := phase_request b c
    have ht := h.toTied.interrupted (interrupted_request n b c)
    exact ⟨(ht.record _).settled (by rw [context_record, hp]; decide) fun _ => hp, fun _ => hp⟩

/-- A turn leaves no request behind, unless the context waits for its pass. -/
theorem Settled.serve (h : Settled d n c s b) (hsink : ∀ f b g, (sink f (b, g)).1 = b) (g : γ) :
    Settled d n c s (Bench.serve d sink (b, g)).1.1 ∧
      (((Bench.serve d sink (b, g)).1.1.signal s).isPending = true →
        ((Bench.serve d sink (b, g)).1.1.context c).phase = .scheduled) := by
  have htaken : ((b.takeSignal s).1.signal s).isPending = false := (b.takeSignal_spec s).2.1
  -- A turn that runs no pass leaves the phase alone and no request behind.
  have quiet : ∀ b', Tied d n c s b' → (b'.context c).phase = (b.context c).phase →
      (b'.signal s).isPending = false → Settled d n c s b' ∧
        ((b'.signal s).isPending = true → (b'.context c).phase = .scheduled) := by
    intro b' ht hp hno
    exact ⟨ht.settled (by rw [hp]; exact h.pass) (scheduled_of_clear hno), scheduled_of_clear hno⟩
  by_cases hs : (b.signal s).isPending = true
  · rw [serve_of_pending h.toAttached hs]
    have ht := h.toTied.takeSignal s
    rcases pollDevice_cases ht.toAttached sink g with
      ⟨-, r, k, hr, he⟩ | ⟨-, e, he⟩ | ⟨-, e, he⟩
    · rw [he]
      have hstart : Passing d n c s (((b.takeSignal s).1.recordDevice d .polled).startPass c) :=
        ⟨((ht.record _).setPhase .draining).record _,
          congrArg PollContext.phase (context_setPhase _ c .draining), htaken⟩
      have hpump := hstart.pump hsink ((b.takeSignal s).1.device d).weight g
      rw [hr] at hpump
      exact hpump.endPass k _
    · rw [he]
      exact quiet _ ((ht.record _).record e) rfl htaken
    · rw [he]
      exact quiet _ ((ht.record _).record e) rfl htaken
  · rw [serve_of_not_pending h.toAttached (by simpa using hs)]
    exact quiet _ (h.toTied.takeSignal s) rfl htaken

/-- The answer of a turn that did no harm: no request was found, or a scheduled
context ran its pass, or a disabled one gave an empty pass. -/
def Answered (d : Handle Device) (b : Bench) (answer : Option (Except Fault Pass)) : Prop :=
  answer = none ∨
    ((b.context (b.device d).context).phase = .scheduled ∧
      ∃ k, answer = some (.ok ⟨k, decide (k < (b.device d).weight)⟩)) ∨
    ((b.context (b.device d).context).phase = .disabled ∧ answer = some (.ok ⟨0, true⟩))

/-- A turn faults on a stale request of an idle context, and on nothing else. -/
theorem Settled.serve_answer (h : Settled d n c s b) (g : γ) :
    (Stale c s .idle b → (Bench.serve d sink (b, g)).2 = some (.error (.pollUnrequested .idle))) ∧
      (¬ Stale c s .idle b → Answered d b (Bench.serve d sink (b, g)).2) := by
  unfold Answered
  rw [h.context_eq]
  by_cases hs : (b.signal s).isPending = true
  · rw [serve_of_pending h.toAttached hs]
    rcases pollDevice_cases (h.toAttached.takeSignal s) sink g with
      ⟨hp, r, k, -, he⟩ | ⟨hp, e, he⟩ | ⟨hp, e, he⟩
    · rw [he]
      have hp' : (b.context c).phase = .scheduled := hp
      refine ⟨fun hq => ?_, fun _ => Or.inr (Or.inl ⟨hp', k, rfl⟩)⟩
      exact absurd hq (not_stale hp' (by decide))
    · rw [he]
      have hp' : (b.context c).phase = .disabled := hp
      refine ⟨fun hq => ?_, fun _ => Or.inr (Or.inr ⟨hp', rfl⟩)⟩
      exact absurd hq (not_stale hp' (by decide))
    · rw [he]
      have hp' : (b.context c).phase = .idle := hp.resolve_right h.pass
      refine ⟨fun _ => ?_, fun hq => absurd ⟨hp', hs⟩ hq⟩
      rw [show ((b.takeSignal s).1.context c).phase = .idle from hp']
  · rw [serve_of_not_pending h.toAttached (by simpa using hs)]
    exact ⟨fun hq => absurd hq.2 hs, fun _ => Or.inl rfl⟩

/-! ## What becomes of a stale request -/

/-- What the things that a user does can do to the phase of a context and to its
signal. -/
inductive Effect (c : Handle PollContext) (s : Handle Signal) (b b' : Bench) : LoopOp → Prop
  | up (hp : (b'.context c).phase = (b.context c).phase.enabled)
    (hs : b'.signal s = b.signal s) : Effect c s b b' .up
  | down (hp : (b'.context c).phase = .disabled) (hs : b'.signal s = b.signal s) :
    Effect c s b b' .down
  | send (f : Frame) (hp : (b'.context c).phase = (b.context c).phase)
    (hs : b'.signal s = b.signal s) : Effect c s b b' (.send f)
  /-- A frame that schedules nothing found no stale request of an idle context. -/
  | unheard (f : Frame) (hp : (b'.context c).phase = (b.context c).phase)
    (hs : b'.signal s = b.signal s) (hno : ¬ Stale c s .idle b) : Effect c s b b' (.deliver f)
  | heard (f : Frame) (hi : (b.context c).phase = .idle)
    (hp : (b'.context c).phase = .scheduled) : Effect c s b b' (.deliver f)
  | turn (hq : (b'.signal s).isPending = true → (b'.context c).phase = .scheduled) :
    Effect c s b b' .turn

/-- Whatever is done, the device stays settled. -/
theorem Settled.step {x : Bench × γ} (h : Settled d n c s x.1)
    (hsink : ∀ f b g, (sink f (b, g)).1 = b) (o : LoopOp) :
    Settled d n c s (loopStep d sink x o).1 ∧ Effect c s x.1 (loopStep d sink x o).1 o := by
  cases o with
  | up =>
    obtain ⟨hset, hp, hs⟩ := h.openDevice
    dsimp only [loopStep]
    exact ⟨hset, .up hp hs⟩
  | down =>
    obtain ⟨hset, hp, hs⟩ := h.closeDevice
    dsimp only [loopStep]
    exact ⟨hset, .down hp hs⟩
  | send f =>
    obtain ⟨hset, hp, hs⟩ := h.send f
    dsimp only [loopStep]
    exact ⟨hset, .send f hp hs⟩
  | deliver f =>
    obtain ⟨hset, hd⟩ := h.deliver f
    dsimp only [loopStep]
    rw [h.nic_eq]
    rcases hd with ⟨hp, hs, hno⟩ | ⟨hi, hp⟩
    · exact ⟨hset, .unheard f hp hs hno⟩
    · exact ⟨hset, .heard f hi hp⟩
  | turn =>
    obtain ⟨hset, hq⟩ := h.serve hsink x.2
    dsimp only [loopStep]
    exact ⟨hset, .turn hq⟩

theorem Settled.run {x : Bench × γ} (h : Settled d n c s x.1)
    (hsink : ∀ f b g, (sink f (b, g)).1 = b) (ops : List LoopOp) :
    Settled d n c s (loop d sink ops x).1 := by
  induction ops generalizing x with
  | nil => exact h
  | cons o ops ih => exact ih (h.step hsink o).1

/-- While the device is down, a stale request outlasts all but an opening and a
turn, and it comes from a closing with a request pending. -/
theorem Effect.stale_disabled_iff {o : LoopOp} (h : Effect c s b b' o) :
    Stale c s .disabled b' ↔
      (o = .down ∧ (b.signal s).isPending = true) ∨
        (Stale c s .disabled b ∧ o ≠ .up ∧ o ≠ .turn) := by
  cases h with
  | up hp hs =>
    have hno : ¬ Stale c s .disabled b' := not_stale hp (PollPhase.enabled_ne_disabled _)
    simp [hno]
  | down hp hs =>
    refine ⟨fun hq => Or.inl ⟨rfl, hs ▸ hq.2⟩, fun hq => ⟨hp, ?_⟩⟩
    rw [hs]
    exact hq.elim And.right fun hq => hq.1.2
  | send f hp hs =>
    rw [stale_congr hp hs]
    simp
  | unheard f hp hs hno =>
    rw [stale_congr hp hs]
    simp
  | heard f hi hp =>
    have hno : ¬ Stale c s .disabled b := not_stale hi (by decide)
    have hno' : ¬ Stale c s .disabled b' := not_stale hp (by decide)
    simp [hno, hno']
  | turn hq =>
    have hno : ¬ Stale c s .disabled b' := fun hd => not_stale (hq hd.2) (by decide) hd
    simp [hno]

/-- While the device is up, a stale request outlasts sending and further
openings, and it comes from an opening that finds one. -/
theorem Effect.stale_idle_iff {o : LoopOp} (h : Effect c s b b' o) :
    Stale c s .idle b' ↔
      (o = .up ∧ Stale c s .disabled b) ∨
        (Stale c s .idle b ∧ (o = .up ∨ ∃ f, o = .send f)) := by
  cases h with
  | up hp hs =>
    by_cases hd : (b.context c).phase = .disabled
    · -- An opening that finds the device down: only here does a stale request move up.
      have hno : ¬ Stale c s .idle b := not_stale hd (by decide)
      have hi : (b'.context c).phase = .idle := by
        rw [hp, hd]
        rfl
      simp only [hno, false_and, or_false, true_and]
      unfold Stale
      rw [hi, hd, hs]
      simp
    · rw [PollPhase.enabled_of_ne hd] at hp
      have hno : ¬ Stale c s .disabled b := fun hq => hd hq.1
      rw [stale_congr hp hs]
      simp [hno]
  | down hp hs =>
    have hno : ¬ Stale c s .idle b' := not_stale hp (by decide)
    simp [hno]
  | send f hp hs =>
    rw [stale_congr hp hs]
    simp
  | unheard f hp hs hno =>
    rw [stale_congr hp hs]
    simp [hno]
  | heard f hi hp =>
    have hno : ¬ Stale c s .idle b' := not_stale hp (by decide)
    simp [hno]
  | turn hq =>
    have hno : ¬ Stale c s .idle b' := fun hi => not_stale (hq hi.2) (by decide) hi
    simp [hno]

/-! ## Runs with a stale request -/

/-- The device was closed with a request pending, and there was neither a turn
nor an opening since. -/
def Shut (d : Handle Device) (s : Handle Signal) (sink : Sink γ) (x : Bench × γ)
    (ops : List LoopOp) : Prop :=
  ∃ pre mid, ops = pre ++ .down :: mid ∧ ((loop d sink pre x).1.signal s).isPending = true ∧
    ∀ o ∈ mid, o ≠ .up ∧ o ≠ .turn

/-- **The request of a closed device was left for an open one**: after that the
device was opened, and there was nothing since but sending and further
openings. -/
def Reopened (d : Handle Device) (s : Handle Signal) (sink : Sink γ) (x : Bench × γ)
    (ops : List LoopOp) : Prop :=
  ∃ pre post, Shut d s sink x pre ∧ ops = pre ++ .up :: post ∧
    ∀ o ∈ post, o = .up ∨ ∃ f, o = .send f

/-- What holds after a run if its last thing starts it, or keeps it up, holds
exactly if something started it and everything since kept it up. -/
theorem since_iff {A P : List LoopOp → Prop} {a : LoopOp} {keep : LoopOp → Prop} (hnil : ¬ A [])
    (hsnoc : ∀ ops o, A (ops ++ [o]) ↔ (o = a ∧ P ops) ∨ (A ops ∧ keep o)) (ops : List LoopOp) :
    A ops ↔ ∃ pre mid, ops = pre ++ a :: mid ∧ P pre ∧ ∀ o ∈ mid, keep o := by
  -- Both directions go by the last thing done.
  constructor
  · intro h
    induction ops using List.reverseRecOn with
    | nil => exact absurd h hnil
    | append_singleton ops o ih =>
      rcases (hsnoc ops o).mp h with ⟨rfl, hp⟩ | ⟨hops, ho⟩
      · exact ⟨ops, [], rfl, hp, nofun⟩
      · obtain ⟨pre, mid, rfl, hp, hmid⟩ := ih hops
        refine ⟨pre, mid ++ [o], by simp, hp, fun o' ho' => ?_⟩
        rcases List.mem_append.mp ho' with ho' | ho'
        · exact hmid o' ho'
        · rw [List.mem_singleton.mp ho']
          exact ho
  · rintro ⟨pre, mid, rfl, hp, hmid⟩
    induction mid using List.reverseRecOn with
    | nil => exact (hsnoc pre a).mpr (Or.inl ⟨rfl, hp⟩)
    | append_singleton mid o ih =>
      rw [← List.cons_append, ← List.append_assoc]
      refine (hsnoc _ o).mpr (Or.inr ⟨ih fun o' ho' => ?_, ?_⟩)
      · exact hmid o' (List.mem_append_left _ ho')
      · exact hmid o (List.mem_append_right _ (List.mem_singleton.mpr rfl))

section History

variable {x : Bench × γ} (h : Settled d n c s x.1) (hoff : (x.1.signal s).isPending = false)
  (hsink : ∀ f b g, (sink f (b, g)).1 = b) (ops : List LoopOp)

include h hoff hsink

theorem Settled.shut_iff :
    Stale c s .disabled (loop d sink ops x).1 ↔ Shut d s sink x ops := by
  have hnil : ¬ Stale c s .disabled x.1 := fun hq => absurd (hq.2.symm.trans hoff) (by decide)
  have hsnoc : ∀ ops o, Stale c s .disabled (loop d sink (ops ++ [o]) x).1 ↔
      (o = .down ∧ ((loop d sink ops x).1.signal s).isPending = true) ∨
        (Stale c s .disabled (loop d sink ops x).1 ∧ o ≠ .up ∧ o ≠ .turn) := by
    intro ops o
    rw [loop_append]
    exact ((h.run hsink ops).step hsink o).2.stale_disabled_iff
  exact since_iff (A := fun ops => Stale c s .disabled (loop d sink ops x).1) hnil hsnoc ops

theorem Settled.reopened_iff :
    Stale c s .idle (loop d sink ops x).1 ↔ Reopened d s sink x ops := by
  have hnil : ¬ Stale c s .idle x.1 := fun hq => absurd (hq.2.symm.trans hoff) (by decide)
  have hsnoc : ∀ ops o, Stale c s .idle (loop d sink (ops ++ [o]) x).1 ↔
      (o = .up ∧ Shut d s sink x ops) ∨
        (Stale c s .idle (loop d sink ops x).1 ∧ (o = .up ∨ ∃ f, o = .send f)) := by
    intro ops o
    rw [loop_append, ← h.shut_iff hoff hsink ops]
    exact ((h.run hsink ops).step hsink o).2.stale_idle_iff
  rw [since_iff (A := fun ops => Stale c s .idle (loop d sink ops x).1) hnil hsnoc ops]
  refine exists_congr fun pre => exists_congr fun post => ?_
  exact and_left_comm

/-- What the next turn answers after a run. -/
theorem Settled.serve_answer_loop :
    (Reopened d s sink x ops →
      (Bench.serve d sink (loop d sink ops x)).2 = some (.error (.pollUnrequested .idle))) ∧
    (¬ Reopened d s sink x ops →
      Answered d (loop d sink ops x).1 (Bench.serve d sink (loop d sink ops x)).2) := by
  rw [← h.reopened_iff hoff hsink ops]
  exact (h.run hsink ops).serve_answer (loop d sink ops x).2

end History

/-! ## New devices -/

/-- A signal is free for a new device on a card: no request is pending, and
nothing that the card does raises it or concerns the context to come. -/
structure Free (n : Handle Nic) (s : Handle Signal) (b : Bench) : Prop where
  clear : (b.signal s).isPending = false
  hook : (b.nic n).hook ≠ some s
  handler : ∀ as, (b.nic n).handler = some as → ∀ a ∈ as, a.Spares b ⟨b.contexts.next⟩ s

theorem settled_of_newDevice {x : Settings} (hd : b.newDevice x n s = .ok (d, b'))
    (hf : Free n s b) : Settled d n ⟨b.contexts.next⟩ s b' ∧ (b'.signal s).isPending = false := by
  obtain ⟨ha, hp, hc, hn, hs⟩ := newDevice_spec hd
  have hnic : b'.nic n = b.nic n := by rw [nic, hn, ← nic]
  have hclear : (b'.signal s).isPending = false := by rw [signal, hs, ← signal, hf.clear]
  have ht : Tied d n ⟨b.contexts.next⟩ s b' := by
    refine ⟨ha, by rw [hnic]; exact hf.hook, Or.inr fun as has a hmem => ?_⟩
    rw [hnic] at has
    exact spares_of_request (hf.handler as has a hmem) fun k hk => by rw [hc k hk]
  exact ⟨ht.settled (by rw [hp]; decide) (scheduled_of_clear hclear), hclear⟩

theorem settled_of_buildDevice {x : Settings} (hd : b.buildDevice x s = .ok (d, b'))
    (hs : (b.signal s).isPending = false) :
    ∃ n c, Settled d n c s b' ∧ (b'.signal s).isPending = false ∧
      (b'.context c).phase = .disabled ∧ (b'.nic n).gate.isReady = false := by
  obtain ⟨n, c, ha, hp, hx, hsig⟩ := buildDevice_spec hd
  obtain ⟨hg, hh, hk, -⟩ := Nic.new_of_ofSizes hx
  have hclear : (b'.signal s).isPending = false := by rw [signal, hsig, ← signal, hs]
  have ht : Tied d n c s b' := ⟨ha, by simp [hk], Or.inr fun as has => by simp [hh] at has⟩
  exact ⟨n, c, ht.settled (by rw [hp]; decide) (scheduled_of_clear hclear), hclear, hp,
    by rw [hg]; rfl⟩

/-- On a card that is not ready: open the device, deliver a frame to it, close
it, and open it again. -/
theorem reopened_of_arrival (h : Settled d n c s b) (hp : (b.context c).phase = .disabled)
    (hr : (b.nic n).gate.isReady = false) (f : Frame) (g : γ) :
    Reopened d s sink (b, g) [.up, .deliver f, .down, .up] := by
  obtain ⟨ha, hx, hpo, -⟩ := openDevice_spec h.toAttached
  rw [Nic.opened_of_not_ready hr] at hx
  suffices hs : ((loop d sink [.up, .deliver f] (b, g)).1.signal s).isPending = true from
    ⟨[.up, .deliver f, .down], [], ⟨[.up, .deliver f], [], rfl, hs, nofun⟩, rfl, nofun⟩
  simp only [loop, List.foldl, loopStep]
  rw [ha.nic_eq]
  refine (deliver_listening ha ?_ ?_ ?_ ?_ ?_ f).2
  · rw [hx]
    rfl
  · rw [hx]
  · rw [hx]
  · rw [hpo, hp]
    rfl
  · rw [hx]
    exact (b.nic n).toList_ring_emptied .receive

/-- **When a turn faults.**  Make a device on any card with a signal that is
free, and let its user do anything.  The next turn of the run loop faults exactly
when the request of a closed device was left for an open one.  In every other
case it finds no request, runs a real pass, or gets the empty pass of a disabled
context. -/
theorem serve_after_loop {x : Settings} {b₀ b₁ : Bench} (hd : b₀.newDevice x n s = .ok (d, b₁))
    (hf : Free n s b₀) (hsink : ∀ f b g, (sink f (b, g)).1 = b) (ops : List LoopOp) (g : γ) :
    (Reopened d s sink (b₁, g) ops →
      (serve d sink (loop d sink ops (b₁, g))).2 = some (.error (.pollUnrequested .idle))) ∧
    (¬ Reopened d s sink (b₁, g) ops →
      Answered d (loop d sink ops (b₁, g)).1 (serve d sink (loop d sink ops (b₁, g))).2) := by
  obtain ⟨h, hclear⟩ := settled_of_newDevice hd hf
  exact Settled.serve_answer_loop (x := (b₁, g)) h hclear hsink ops

/-- A device on a card of the least size.  The run that closes it with a request
pending and opens it again ends in a fault, the run that only opens it does
not. -/
theorem serve_after_loop_arrival :
    ∃ x n b₀ d b₁, Nic.ofSizes 2 2 = .ok x ∧ (default : Bench).addNic x = (n, b₀) ∧
      b₀.newDevice .standard n ⟨0⟩ = .ok (d, b₁) ∧ Free n ⟨0⟩ b₀ ∧
      (∀ f b g, (gather f (b, g)).1 = b) ∧
      Reopened d ⟨0⟩ gather (b₁, []) [.up, .deliver ⟨[1, 2, 3]⟩, .down, .up] ∧
      (serve d gather (loop d gather [.up, .deliver ⟨[1, 2, 3]⟩, .down, .up] (b₁, []))).2 =
        some (.error (.pollUnrequested .idle)) ∧
      ¬ Reopened d ⟨0⟩ gather (b₁, []) [.up] ∧
      Answered d (loop d gather [.up] (b₁, [])).1
        (serve d gather (loop d gather [.up] (b₁, []))).2 := by
  obtain ⟨x, hx⟩ : ∃ x, Nic.ofSizes 2 2 = .ok x := ⟨_, rfl⟩
  obtain ⟨n, b₀, hn⟩ : ∃ n b₀, (default : Bench).addNic x = (n, b₀) := ⟨_, _, rfl⟩
  obtain ⟨d, b₁, hd⟩ : ∃ d b₁, b₀.newDevice .standard n ⟨0⟩ = .ok (d, b₁) := ⟨_, _, rfl⟩
  obtain ⟨hg, hh, hk, -⟩ := Nic.new_of_ofSizes hx
  have hf : Free n ⟨0⟩ b₀ := by
    obtain ⟨-, rfl⟩ := Prod.mk.inj hn
    refine ⟨rfl, ?_, ?_⟩
    · rw [nic_of_addNic hn, hk]
      exact nofun
    · rw [nic_of_addNic hn, hh]
      exact nofun
  have hsink : ∀ f b g, (gather f (b, g)).1 = b := fun _ _ _ => rfl
  have hre : Reopened d ⟨0⟩ gather (b₁, []) [.up, .deliver ⟨[1, 2, 3]⟩, .down, .up] := by
    obtain ⟨-, hp, -, hnics, -⟩ := newDevice_spec hd
    refine reopened_of_arrival (settled_of_newDevice hd hf).1 hp ?_ _ _
    rw [nic, hnics, ← nic, nic_of_addNic hn, hg]
    rfl
  have hno : ¬ Reopened d ⟨0⟩ gather (b₁, []) [.up] := by
    rintro ⟨pre, post, ⟨pre', mid, rfl, -, -⟩, he, -⟩
    have := congrArg List.length he
    simp only [List.length_append, List.length_cons, List.length_nil] at this
    omega
  exact ⟨x, n, b₀, d, b₁, hx, hn, hd, hf, hsink, hre, (serve_after_loop hd hf hsink _ _).1 hre,
    hno, (serve_after_loop hd hf hsink _ _).2 hno⟩

/-- Polling only on request does reach the fault: a device with a card of its
own is opened, receives a frame, is closed, and is opened again.  The next turn
of its run loop finds the request and polls an idle context. -/
theorem turn_polls_unrequested :
    ∃ d b, (default : Bench).buildDevice
        { Settings.standard with txRing := 2, rxRing := 2 } ⟨0⟩ = .ok (d, b) ∧
      (serve d gather (loop d gather [.up, .deliver ⟨[1, 2, 3]⟩, .down, .up] (b, []))).2 =
        some (.error (.pollUnrequested .idle)) := by
  obtain ⟨d, b, hb⟩ : ∃ d b, (default : Bench).buildDevice
    { Settings.standard with txRing := 2, rxRing := 2 } ⟨0⟩ = .ok (d, b) := ⟨_, _, rfl⟩
  have hsink : ∀ f b g, (gather f (b, g)).1 = b := fun _ _ _ => rfl
  obtain ⟨n, c, h, hclear, hp, hr⟩ := settled_of_buildDevice hb rfl
  have hre : Reopened d ⟨0⟩ gather (b, []) [.up, .deliver ⟨[1, 2, 3]⟩, .down, .up] :=
    reopened_of_arrival h hp hr _ _
  exact ⟨d, b, hb, (Settled.serve_answer_loop (x := (b, [])) h hclear hsink _).1 hre⟩

end Bench
end SoftNic
