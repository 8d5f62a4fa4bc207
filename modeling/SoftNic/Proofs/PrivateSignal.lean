import SoftNic.Proofs.RunLoop

/-! # Signals of one device only

A run loop can tell what a raised signal means only if nobody raises it but the
device.  That takes two things: the hook of the card is another signal, and the
handler of the card is that of the device or has nothing to do with it, as the
handler of an earlier driver has (`HandlerAction.Spares`).  A device that is so
tied to its signal stays so, whatever is done with it (`Bench.Tied`).

What follows is that the phase of the context and the signal move together.  An
interrupt, a frame, or arming the line leaves both as they are, or schedules an
idle context.
-/
namespace SoftNic

/-- An action of a handler has nothing to do with a context or a signal. -/
def HandlerAction.Spares (b : Bench) (c : Handle PollContext) (s : Handle Signal) :
    HandlerAction → Prop
  | .raise t => t ≠ s
  | .arm => True
  | .disarm => True
  | .schedule k => k ≠ c ∧ (b.context k).request ≠ s

namespace Bench

variable {d : Handle Device} {n : Handle Nic} {c : Handle PollContext} {s : Handle Signal}
  {b b' : Bench}

/-! ## Handlers -/

theorem act_spares {a : HandlerAction} (h : a.Spares b c s) :
    (act n b a).context c = b.context c ∧ (act n b a).signal s = b.signal s := by
  cases a with
  | raise t => exact ⟨rfl, signal_raise_of_ne (Ne.symm h) b⟩
  | arm => exact ⟨rfl, rfl⟩
  | disarm => exact ⟨rfl, rfl⟩
  | schedule k =>
    obtain ⟨hk, hs⟩ := h
    by_cases hi : (b.context k).phase = .idle
    · rw [act, schedule_of_idle hi]
      exact ⟨context_request_of_ne (Ne.symm hk) b, signal_request_of_ne (Ne.symm hs)⟩
    · rw [act, schedule_of_not_idle hi]
      exact ⟨rfl, rfl⟩

theorem spares_of_request {a : HandlerAction} (h : a.Spares b c s)
    (hr : ∀ k, k ≠ c → (b'.context k).request = (b.context k).request) : a.Spares b' c s := by
  cases a with
  | raise t => exact h
  | arm => trivial
  | disarm => trivial
  | schedule k => exact ⟨h.1, by rw [hr k h.1]; exact h.2⟩

theorem foldl_act_spares {as : List HandlerAction} (h : ∀ a ∈ as, a.Spares b c s) :
    (as.foldl (act n) b).context c = b.context c ∧ (as.foldl (act n) b).signal s = b.signal s := by
  induction as generalizing b with
  | nil => exact ⟨rfl, rfl⟩
  | cons a as ih =>
    obtain ⟨hc, hs⟩ := act_spares (n := n) (h a List.mem_cons_self)
    -- No action changes whose signal a context raises, so those to come still spare.
    have hr := (interrupted_act n b a).request
    obtain ⟨hc', hs'⟩ := ih fun a' ha' =>
      spares_of_request (h a' (List.mem_cons_of_mem _ ha')) fun k _ => hr k
    exact ⟨hc'.trans hc, hs'.trans hs⟩

/-! ## Ties -/

/-- Nobody but the device raises its signal: the handler of the card is that of
the device or has nothing to do with it, and the hook is another signal. -/
structure Tied (d : Handle Device) (n : Handle Nic) (c : Handle PollContext)
    (s : Handle Signal) (b : Bench) : Prop extends Attached d n c s b where
  hook : (b.nic n).hook ≠ some s
  handler : (b.nic n).handler = some (passHandler c) ∨
    ∀ as, (b.nic n).handler = some as → ∀ a ∈ as, a.Spares b c s

theorem Tied.transfer (h : Tied d n c s b) (ha : Attached d n c s b')
    (hk : (b'.nic n).hook = (b.nic n).hook) (hh : (b'.nic n).handler = (b.nic n).handler)
    (hr : ∀ k, (b'.context k).request = (b.context k).request) : Tied d n c s b' where
  toAttached := ha
  hook := by rw [hk]; exact h.hook
  handler := by
    rw [hh]
    refine h.handler.imp_right fun hs as has a ha => ?_
    exact spares_of_request (hs as has a ha) fun k _ => hr k

theorem Tied.onlyCard (h : Tied d n c s b) (ho : OnlyCard n b b')
    (hk : (b'.nic n).hook = (b.nic n).hook) (hh : (b'.nic n).handler = (b.nic n).handler) :
    Tied d n c s b' :=
  h.transfer (h.toAttached.onlyCard ho) hk hh fun k => by rw [ho.context_eq]

theorem Tied.interrupted (h : Tied d n c s b) (hi : Interrupted n b b') : Tied d n c s b' :=
  h.transfer (h.toAttached.interrupted hi) hi.hook_eq hi.handler_eq hi.request

/-- An interrupt changes the phase of the context only to schedule it, and the
signal only then. -/
theorem Tied.interrupt_cases (h : Tied d n c s b) :
    ((b.interrupt n).1.context c = b.context c ∧ (b.interrupt n).1.signal s = b.signal s) ∨
      ((b.context c).phase = .idle ∧ ((b.interrupt n).1.context c).phase = .scheduled) := by
  by_cases ha : (b.nic n).gate.armed = true
  · rcases h.handler with hh | hh
    · rw [interrupt_passHandler ha hh]
      by_cases hi : (b.context c).phase = .idle
      · have hi' : (((b.record (.nic n (.notified (passHandler c)))).mask n).context c).phase = .idle :=
          hi
        rw [schedule_of_idle hi']
        exact Or.inr ⟨hi, phase_request ..⟩
      · have hi' : (((b.record (.nic n (.notified (passHandler c)))).mask n).context c).phase ≠ .idle :=
          hi
        rw [schedule_of_not_idle hi']
        exact Or.inl ⟨rfl, rfl⟩
    · unfold interrupt
      rw [if_pos ha]
      split
      · next as has =>
        have hs : ∀ a ∈ as, a.Spares (b.record (.nic n (.notified as))) c s := fun a ha =>
          spares_of_request (hh as has a ha) fun _ _ => rfl
        exact Or.inl (foldl_act_spares hs)
      · exact Or.inl ⟨rfl, rfl⟩
  · rw [interrupt_of_masked (by simpa using ha)]
    exact Or.inl ⟨rfl, rfl⟩

theorem Tied.record (h : Tied d n c s b) (e : Event) : Tied d n c s (b.record e) :=
  h.transfer (h.toAttached.record e) rfl rfl fun _ => rfl

theorem Tied.takeSignal (h : Tied d n c s b) (t : Handle Signal) :
    Tied d n c s (b.takeSignal t).1 :=
  h.transfer (h.toAttached.takeSignal t) rfl rfl fun _ => rfl

theorem Tied.setPhase (h : Tied d n c s b) (p : PollPhase) : Tied d n c s (b.setPhase c p) :=
  h.transfer (h.toAttached.setPhase c p) rfl rfl fun k => request_setPhase b c k p

/-- Arming the line does to the context what an interrupt does. -/
theorem Tied.rearm (h : Tied d n c s b) :
    Tied d n c s (b.rearm n) ∧
      (((b.rearm n).context c = b.context c ∧ (b.rearm n).signal s = b.signal s) ∨
        ((b.context c).phase = .idle ∧ ((b.rearm n).context c).phase = .scheduled)) := by
  refine ⟨h.interrupted (interrupted_rearm b n), ?_⟩
  rw [rearm_eq]
  split
  · exact (h.interrupted (interrupted_armLine b n)).interrupt_cases
  · exact Or.inl ⟨rfl, rfl⟩

/-- So does a frame from the wire. -/
theorem Tied.deliver (h : Tied d n c s b) (f : Frame) :
    Tied d n c s (b.deliver n f).1 ∧
      (((b.deliver n f).1.context c = b.context c ∧ (b.deliver n f).1.signal s = b.signal s) ∨
        ((b.context c).phase = .idle ∧ ((b.deliver n f).1.context c).phase = .scheduled)) := by
  have ho := onlyCard_accept b n .receive f
  have hc := b.accept_control n .receive f
  have ht : Tied d n c s (b.accept n .receive f).1 := h.onlyCard ho hc.hook hc.handler
  refine ⟨ht.interrupted (b.deliver_eq n f).2, ?_⟩
  rcases b.deliver_cases n f with ⟨-, hd, -⟩ | ⟨-, -, p, e, hd⟩
  · rw [hd]
    exact Or.inl ⟨ho.context_eq c, ho.signal_eq s⟩
  · rw [hd, context_recordIf, signal_recordIf, ← ho.context_eq, ← ho.signal_eq]
    exact ht.interrupt_cases

end Bench
end SoftNic
