import SoftNic.Proofs.CallTrace

/-! # The ledger of requests

A context asks for a pass in two places: when it is idle and is asked for one, and when
a pass ends with its budget used up.  A request is used up in two places as well: by the
pass that it asked for, and by a disabling that finds it waiting.  This module proves
that the two sides balance in every run, at its end and at every call on the way: the
requests made are those used up, and one more exactly while the context is scheduled.

The ledger is kept per context.  Only polling the context, disabling it and the end of its
pass have lines of their own in it.  Of every other call, whatever handlers it runs, it is
enough to know that it asks for at most one pass, and only while the context is idle
(`Bench.Asked`).
-/
namespace SoftNic

namespace Call

/-- The call is a poll that begins a pass. -/
def beginsPass (c : Handle PollContext) : Call → Bool
  | polled k b => k = c && (b.context c).isScheduled
  | made .. => false

/-- The call disables the context while a pass is asked for. -/
def withdraws (c : Handle PollContext) : Call → Bool
  | made (.disable k) b => k = c && (b.context c).isScheduled
  | _ => false

end Call

namespace Bench

variable {c k : Handle PollContext} {b b' b₀ b₁ : Bench} {l : List Call} {r : Nat}

/-! ## The two sides -/

/-- The passes that were begun. -/
def passes (c : Handle PollContext) (l : List Call) : Nat :=
  l.countP (·.beginsPass c)

/-- The requests that were withdrawn. -/
def withdrawals (c : Handle PollContext) (l : List Call) : Nat :=
  l.countP (·.withdraws c)

/-- The requests that wait: one if the context is scheduled. -/
def dueRequests (b : Bench) (c : Handle PollContext) : Nat :=
  if (b.context c).phase = .scheduled then 1 else 0

theorem dueRequests_of_scheduled (h : (b.context c).phase = .scheduled) : b.dueRequests c = 1 :=
  if_pos h

theorem dueRequests_of_not_scheduled (h : (b.context c).phase ≠ .scheduled) : b.dueRequests c = 0 :=
  if_neg h

theorem dueRequests_congr (h : (b'.context c).phase = (b.context c).phase) :
    b'.dueRequests c = b.dueRequests c := by
  rw [dueRequests, h, ← dueRequests]

/-- A call uses up a request if it begins a pass or withdraws the request. -/
theorem passes_append (c : Handle PollContext) (l : List Call) (x : Call) :
    passes c (l ++ [x]) = passes c l + if x.beginsPass c then 1 else 0 := by
  rw [passes, List.countP_append, List.countP_singleton, ← passes]

theorem withdrawals_append (c : Handle PollContext) (l : List Call) (x : Call) :
    withdrawals c (l ++ [x]) = withdrawals c l + if x.withdraws c then 1 else 0 := by
  rw [withdrawals, List.countP_append, List.countP_singleton, ← withdrawals]

/-- **The requests balance**: those made since a context had made `r` of them are those
used up, and the one that waits. -/
def RequestsBalance (c : Handle PollContext) (r : Nat) (b : Bench) (l : List Call) : Prop :=
  b.requests c = r + passes c l + withdrawals c l + b.dueRequests c

namespace RequestsBalance

/-- Nothing happened to the context. -/
theorem same (h : RequestsBalance c r b l) (hp : (b'.context c).phase = (b.context c).phase)
    (hr : b'.requests c = b.requests c) : RequestsBalance c r b' l := by
  unfold RequestsBalance
  rw [hr, dueRequests_congr hp]
  exact h

/-- No request waits, before or after. -/
theorem idle (h : RequestsBalance c r b l) (hp : (b.context c).phase ≠ .scheduled)
    (hp' : (b'.context c).phase ≠ .scheduled) (hr : b'.requests c = b.requests c) :
    RequestsBalance c r b' l := by
  unfold RequestsBalance at h ⊢
  rw [hr, dueRequests_of_not_scheduled hp', h, dueRequests_of_not_scheduled hp]

/-- The context was asked for a pass, or it was not. -/
theorem asked (h : RequestsBalance c r b l) (ha : Asked c b b') : RequestsBalance c r b' l := by
  cases ha with
  | not hp hr => exact h.same hp hr
  | once hi hs hr =>
    have h₀ : b.dueRequests c = 0 := dueRequests_of_not_scheduled (by rw [hi]; decide)
    unfold RequestsBalance at h ⊢
    rw [hr, h, h₀, dueRequests_of_scheduled hs]

/-- A call that uses up nothing. -/
theorem called (h : RequestsBalance c r b l) {x : Call} (hp : x.beginsPass c = false)
    (hw : x.withdraws c = false) : RequestsBalance c r b (l ++ [x]) := by
  unfold RequestsBalance at h ⊢
  rw [passes_append, withdrawals_append, hp, hw]
  exact h

/-! ## Steps -/

theorem take (h : RequestsBalance c r b l) (n : Handle Nic) (i : Direction) :
    RequestsBalance c r (b.take n i).1 l :=
  h.asked ((onlyCard_take b n i).asked (unmarked_take b n i) c)

theorem enable (h : RequestsBalance c r b l) (k : Handle PollContext) :
    RequestsBalance c r (b.enableContext k) l := by
  have hr := (unmarked_enableContext b k).requests c
  by_cases hk : c = k
  · subst hk
    by_cases hd : (b.context c).phase = .disabled
    · refine h.idle (by rw [hd]; decide) ?_ hr
      rw [phase_enableContext, hd]
      decide
    · refine h.same ?_ hr
      rw [phase_enableContext, PollPhase.enabled_of_ne hd]
  · exact h.same (by rw [context_enableContext_of_ne hk]) hr

/-- A disabling withdraws the request that it finds. -/
theorem disable (h : RequestsBalance c r b l) (k : Handle PollContext) :
    RequestsBalance c r (b.disableContext k).1 (l ++ [.made (.disable k) b]) := by
  have hr := (unmarked_disableContext b k).requests c
  by_cases hk : c = k
  · subst hk
    by_cases hd : (b.context c).phase = .draining
    · refine (h.called rfl ?_).same (by rw [disableContext_of_draining hd]) hr
      simp [Call.withdraws, PollContext.isScheduled, hd]
    · obtain ⟨b', hb, hp, -⟩ := disableContext_ok ⟨0⟩ hd
      have hw : (b.disableContext c).1.dueRequests c = 0 := by
        rw [hb]
        exact dueRequests_of_not_scheduled (by rw [hp]; decide)
      unfold RequestsBalance at h ⊢
      rw [hr, h, hw, passes_append, withdrawals_append]
      by_cases hs : (b.context c).phase = .scheduled
      · simp [Call.beginsPass, Call.withdraws, PollContext.isScheduled, dueRequests, hs]
        omega
      · simp [Call.beginsPass, Call.withdraws, PollContext.isScheduled, dueRequests, hs]
  · refine (h.called rfl ?_).same (by rw [context_disableContext_of_ne hk]) hr
    simp [Call.withdraws, Ne.symm hk]

theorem call (h : RequestsBalance c r b l) (op : BenchOp) :
    RequestsBalance c r (benchStep b op) (l ++ [.made op b]) := by
  cases op with
  | card n op => exact (h.asked (asked_cardStep c n b op)).called rfl rfl
  | installHandler n as =>
    exact (h.asked ((onlyCard_installHandler b n as).asked
      (unmarked_installHandler b n as) c)).called rfl rfl
  | setHook n s => exact (h.called rfl rfl).same rfl rfl
  | clearHook n => exact (h.called rfl rfl).same rfl rfl
  | enable k => exact (h.enable k).called rfl rfl
  | disable k => exact h.disable k
  | schedule k => exact (h.asked (asked_schedule c b k)).called rfl rfl

/-- The beginning of a pass uses up the request that it was asked for by. -/
theorem passBegins (h : RequestsBalance c r b l) (hk : (b.context k).phase = .scheduled) :
    RequestsBalance c r (b.startPass k) (l ++ [.polled k b]) := by
  have hr : (b.startPass k).requests c = b.requests c :=
    (((Unmarked.refl b).setPhase k .draining).record _ rfl).requests c
  by_cases hc : c = k
  · subst hc
    have hw : (b.startPass c).dueRequests c = 0 :=
      dueRequests_of_not_scheduled (by rw [phase_startPass]; decide)
    unfold RequestsBalance at h ⊢
    rw [hr, h, hw, dueRequests_of_scheduled hk, passes_append, withdrawals_append]
    simp [Call.beginsPass, Call.withdraws, PollContext.isScheduled, hk]
    omega
  · refine (h.called ?_ rfl).same ?_ hr
    · simp [Call.beginsPass, Ne.symm hc]
    · rw [startPass, context_record, context_setPhase_of_ne hc]

theorem noPass (h : RequestsBalance c r b l) (hk : (b.context k).phase ≠ .scheduled) :
    RequestsBalance c r b (l ++ [.polled k b]) := by
  refine h.called ?_ rfl
  by_cases hc : k = c
  · subst hc
    simp [Call.beginsPass, PollContext.isScheduled, hk]
  · simp [Call.beginsPass, hc]

theorem passEnds (h : RequestsBalance c r b l) (hk : (b.context k).phase = .draining) :
    RequestsBalance c r (b.setPhase k .idle) l := by
  have hr : (b.setPhase k .idle).requests c = b.requests c :=
    ((Unmarked.refl b).setPhase k .idle).requests c
  by_cases hc : c = k
  · subst hc
    refine h.idle (by rw [hk]; decide) ?_ hr
    rw [context_setPhase]
    exact nofun
  · exact h.same (by rw [context_setPhase_of_ne hc]) hr

/-- A pass that has used its budget up asks for the next one. -/
theorem passGoesOn (h : RequestsBalance c r b l) (hk : (b.context k).phase = .draining) :
    RequestsBalance c r (b.request k) l := by
  by_cases hc : c = k
  · subst hc
    have h₀ : b.dueRequests c = 0 := dueRequests_of_not_scheduled (by rw [hk]; decide)
    unfold RequestsBalance at h ⊢
    rw [requests_request, if_pos rfl, h, h₀, dueRequests_of_scheduled (phase_request b c)]
  · exact h.asked (asked_request_of_ne hc b)

theorem stepInvariant (c : Handle PollContext) (r : Nat) :
    StepInvariant (RequestsBalance c r) where
  call _ _ op h := h.call op
  take _ _ n i h := h.take n i
  beside _ _ _ hb h := h.same (hb.phase c) (hb.unmarked.requests c)
  passBegins _ _ _ hk h := h.passBegins hk
  noPass _ _ _ hk h := h.noPass hk
  passEnds _ _ _ hk h := h.passEnds hk
  passGoesOn _ _ _ hk h := h.passGoesOn hk

end RequestsBalance

/-! ## Runs -/

/-- A new context is disabled. -/
theorem phase_of_addContext {s : Handle Signal} (h : b₀.addContext s = (c, b₁)) :
    (b₁.context c).phase = .disabled := by
  obtain ⟨rfl, rfl⟩ := Prod.mk.inj h
  exact congrArg PollContext.phase (b₀.contexts.get_add_self _)

/-- **Every request is used up once, and at most one waits.**  Put a context on any bench
and let anything happen there.  The requests that it has made are the passes begun, the
requests withdrawn, and one more if it is scheduled; so it was whenever a call was made;
and so a pass begins only if a request waits for it. -/
theorem requests_balance {s : Handle Signal} (hc : b₀.addContext s = (c, b₁))
    (hr : CallRun b₁ [] b l) :
    b.requests c = b₁.requests c + passes c l + withdrawals c l +
        (if (b.context c).phase = .scheduled then 1 else 0) ∧
      (∀ pre x, pre ++ [x] <+: l →
        x.found.requests c = b₁.requests c + passes c pre + withdrawals c pre +
          if (x.found.context c).phase = .scheduled then 1 else 0) ∧
      ∀ pre x, pre ++ [x] <+: l → x.beginsPass c = true →
        x.found.requests c = b₁.requests c + passes c pre + withdrawals c pre + 1 := by
  have hnew : RequestsBalance c (b₁.requests c) b₁ [] := by
    unfold RequestsBalance
    rw [dueRequests_of_not_scheduled (by rw [phase_of_addContext hc]; decide)]
    rfl
  have h := hr.keep (RequestsBalance.stepInvariant c (b₁.requests c)).always (.nil hnew)
  refine ⟨h.now, h.before, fun pre x hx hb => ?_⟩
  have hs : (x.found.context c).phase = .scheduled := by
    cases x with
    | made op found => cases hb
    | polled k found =>
      simp only [Call.beginsPass, PollContext.isScheduled, Bool.and_eq_true, beq_iff_eq] at hb
      exact hb.2
  exact (h.before pre x hx).trans (by rw [dueRequests_of_scheduled hs])

/-- A sink that lets another frame arrive for each that it is given. -/
def answered : Sink (Unit × List Call) := fun _ y =>
  (benchStep y.1 (.card ⟨0⟩ (.deliver ⟨[2]⟩)), y.2.1,
    y.2.2 ++ [.made (.card ⟨0⟩ (.deliver ⟨[2]⟩)) y.1])

theorem callRun_answered (f : Frame) (y : Bench × Unit × List Call) :
    CallRun y.1 y.2.2 (answered f y).1 (answered f y).2.2 :=
  .call y.1 y.2.2 (.card ⟨0⟩ (.deliver ⟨[2]⟩))

/-- A frame interrupts, and the handler asks for a pass.  The pass uses its budget up, since
its sink lets more frames arrive, and asks for the next one, which is withdrawn. -/
theorem requests_balance_withdrawn :
    ∃ (b₀ b₁ b : Bench) (s : Handle Signal) (c : Handle PollContext) (l : List Call),
      b₀.addContext s = (c, b₁) ∧ CallRun b₁ [] b l ∧
      passes c l = 1 ∧ withdrawals c l = 1 ∧ (b.context c).phase = .disabled ∧
      b.requests c = b₁.requests c + passes c l + withdrawals c l +
        (if (b.context c).phase = .scheduled then 1 else 0) := by
  let c : Handle PollContext := ⟨0⟩
  let n : Handle Nic := ⟨0⟩
  let b₀ : Bench := ((default : Bench).addNic default).2
  have run : CallRun (b₀.addContext ⟨0⟩).2 [] _ _ :=
    (((((CallRun.call _ _ (.enable c)).trans
      (.call _ _ (.installHandler n (passHandler c)))).trans (.call _ _ (.card n .bringUp))).trans
      (.call _ _ (.card n (.deliver ⟨[1]⟩)))).trans
      (.poll _ _ c n 2 answered () fun _ f y _ => callRun_answered f y)).trans
      (.call _ _ (.disable c))
  exact ⟨b₀, _, _, ⟨0⟩, c, _, rfl, run, by decide +kernel, by decide +kernel, by decide +kernel,
    (requests_balance rfl run).1⟩

end Bench
end SoftNic
