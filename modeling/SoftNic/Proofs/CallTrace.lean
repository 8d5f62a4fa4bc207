import SoftNic.Proofs.RunLoop

/-! # Calls and what they find

How often a handler ran, or a context asked for a pass, is a question about a whole
run: about every call that was made, and about the bench that each of them found.  A
run therefore keeps a trace of its calls, oldest first (`CallRun`).  A sink may make
calls too.  It carries the trace along with whatever else it carries, and its calls
stand in the trace where they were made: behind the beginning of the pass that called
the sink, and before the call with which a complete pass arms the interrupt line.

What handlers and contexts did is read off the journal (`notifications`, `requests`);
most calls add nothing to either (`Unmarked`).  A property of a bench and a trace that
each kind of call preserves (`StepInvariant`) holds along the whole run
(`CallRun.keep`), and it held whenever a call was made (`StepInvariant.always`).
-/
namespace SoftNic

/-- What is called. -/
inductive BenchOp
  | card (n : Handle Nic) (op : CardOp)
  | installHandler (n : Handle Nic) (actions : List HandlerAction)
  | setHook (n : Handle Nic) (s : Handle Signal)
  | clearHook (n : Handle Nic)
  | enable (c : Handle PollContext)
  | disable (c : Handle PollContext)
  | schedule (c : Handle PollContext)
  deriving DecidableEq

/-- A call, with the bench that it finds. -/
inductive Call
  | made (op : BenchOp) (found : Bench)
  /-- A context is polled.  What its pass does consists of calls again. -/
  | polled (c : Handle PollContext) (found : Bench)

namespace Call

/-- The bench on which a call is made. -/
def found : Call → Bench
  | made _ b => b
  | polled _ b => b

end Call

namespace Event

/-- What the handler of a card did when it ran. -/
def notified? (n : Handle Nic) : Event → Option (List HandlerAction)
  | nic m (.notified as) => if m = n then some as else none
  | _ => none

/-- Whether a handler ran or a context asked for a pass. -/
def isMark : Event → Bool
  | nic _ (.notified _) => true
  | poll _ .requested => true
  | _ => false

end Event

namespace Bench

variable {γ : Type} {n m : Handle Nic} {c k : Handle PollContext} {f : Frame} {b b' b'' : Bench}
  {l l' : List Call}

/-! ## What the journal says -/

/-- The handlers of a card that have run, oldest first. -/
def notifications (b : Bench) (n : Handle Nic) : List (List HandlerAction) :=
  b.journal.reverse.filterMap (·.notified? n)

/-- How often a context has asked for a pass.  Each time it also raised its request signal,
at once (`request_eq`). -/
def requests (b : Bench) (c : Handle PollContext) : Nat :=
  b.journal.count (.poll c .requested)

theorem notifications_record (b : Bench) (e : Event) (n : Handle Nic) :
    (b.record e).notifications n = b.notifications n ++ (e.notified? n).toList := by
  rw [notifications, record, List.reverse_cons, List.filterMap_append, ← notifications]
  cases h : e.notified? n <;> simp [h]

theorem requests_record (b : Bench) (e : Event) (c : Handle PollContext) :
    (b.record e).requests c = b.requests c + if e = .poll c .requested then 1 else 0 := by
  rw [requests, record, List.count_cons, ← requests]
  simp only [beq_iff_eq]

/-- Neither has a handler run, nor has a context asked for a pass. -/
structure Unmarked (b b' : Bench) : Prop where
  notifications : ∀ n, b'.notifications n = b.notifications n
  requests : ∀ c, b'.requests c = b.requests c

namespace Unmarked

theorem of_journal (h : b'.journal = b.journal) : Unmarked b b' where
  notifications n := by rw [Bench.notifications, h, ← Bench.notifications]
  requests c := by rw [Bench.requests, h, ← Bench.requests]

theorem refl (b : Bench) : Unmarked b b :=
  ⟨fun _ => rfl, fun _ => rfl⟩

theorem trans (h : Unmarked b b') (k : Unmarked b' b'') : Unmarked b b'' where
  notifications n := (k.notifications n).trans (h.notifications n)
  requests c := (k.requests c).trans (h.requests c)

theorem modifyNic (h : Unmarked b b') (n : Handle Nic) (g : Nic → Nic) :
    Unmarked b (b'.modifyNic n g) :=
  h.trans (.of_journal rfl)

theorem setPhase (h : Unmarked b b') (c : Handle PollContext) (p : PollPhase) :
    Unmarked b (b'.setPhase c p) :=
  h.trans (.of_journal rfl)

theorem record (h : Unmarked b b') (e : Event) (he : e.isMark = false) :
    Unmarked b (b'.record e) where
  notifications n := by
    have hn : e.notified? n = none := by
      cases e with
      | nic m x => cases x <;> first | rfl | cases he
      | _ => rfl
    rw [notifications_record, hn, h.notifications]
    exact List.append_nil _
  requests c := by
    have hc : e ≠ .poll c .requested := by
      rintro rfl
      cases he
    rw [requests_record, if_neg hc, h.requests, Nat.add_zero]

theorem recordIf (h : Unmarked b b') (p : Bool) (e : Event) (he : e.isMark = false) :
    Unmarked b (b'.recordIf p e) := by
  cases p
  · exact h
  · exact h.record e he

end Unmarked

theorem unmarked_raise (b : Bench) (s : Handle Signal) : Unmarked b (b.raise s) :=
  have h : Unmarked b (b.modifySignal s Signal.raise) := .of_journal rfl
  h.record _ rfl

theorem unmarked_mask (b : Bench) (n : Handle Nic) : Unmarked b (b.mask n) :=
  (Unmarked.refl b).modifyNic n _

theorem unmarked_installHandler (b : Bench) (n : Handle Nic) (as : List HandlerAction) :
    Unmarked b (b.installHandler n as) :=
  ((Unmarked.refl b).modifyNic n _).recordIf _ _ rfl

theorem unmarked_removeHandler (b : Bench) (n : Handle Nic) : Unmarked b (b.removeHandler n) :=
  (Unmarked.refl b).modifyNic n _

theorem unmarked_releaseRings (b : Bench) (n : Handle Nic) : Unmarked b (b.releaseRings n).1 :=
  (((Unmarked.refl b).modifyNic n _).record _ rfl).record _ rfl

theorem unmarked_setUp (b : Bench) (n : Handle Nic) : Unmarked b (b.setUp n) := by
  unfold setUp
  split
  · exact (Unmarked.refl b).record _ rfl
  · exact (unmarked_releaseRings b n).recordIf _ _ rfl

theorem unmarked_bringUp (b : Bench) (n : Handle Nic) : Unmarked b (b.bringUp n) := by
  unfold bringUp
  split
  · exact (Unmarked.refl b).record _ rfl
  · exact (((unmarked_releaseRings b n).recordIf _ _ rfl).modifyNic n _).record _ rfl

theorem unmarked_shutDown (b : Bench) (n : Handle Nic) : Unmarked b (b.shutDown n) := by
  unfold shutDown
  dsimp only
  split
  · exact ((unmarked_mask b n).modifyNic n _).record _ rfl
  · exact unmarked_mask b n

theorem unmarked_tearDown (b : Bench) (n : Handle Nic) : Unmarked b (b.tearDown n).1 := by
  have hd : Unmarked b (b.beforeTearDown n) := by
    unfold beforeTearDown
    split
    · exact ((Unmarked.refl b).record _ rfl).trans (unmarked_shutDown _ n)
    · exact .refl b
  exact ((hd.trans (unmarked_releaseRings _ n)).modifyNic n _).recordIf _ _ rfl

theorem unmarked_accept (b : Bench) (n : Handle Nic) (i : Direction) (f : Frame) :
    Unmarked b (b.accept n i f).1 := by
  unfold accept
  dsimp only
  split
  · exact (Unmarked.refl b).modifyNic n _
  · split
    · exact ((Unmarked.refl b).modifyNic n _).record _ rfl
    · exact ((Unmarked.refl b).modifyNic n _).record _ rfl

theorem unmarked_take (b : Bench) (n : Handle Nic) (i : Direction) :
    Unmarked b (b.take n i).1 := by
  unfold take
  dsimp only
  split
  · split
    · exact .refl b
    · exact ((Unmarked.refl b).modifyNic n _).record _ rfl
  · exact .refl b

theorem unmarked_transmit (b : Bench) (n : Handle Nic) (f : Frame) :
    Unmarked b (b.transmit n f).1 := by
  rcases b.transmit_cases n f with ht | ⟨t, -, ht⟩
  · rw [ht]
    exact unmarked_accept b n .transmit f
  · rw [ht]
    exact (unmarked_accept b n .transmit f).trans (unmarked_raise _ t)

theorem unmarked_armLine (b : Bench) (n : Handle Nic) : Unmarked b (b.armLine n) :=
  ((Unmarked.refl b).modifyNic n _).record _ rfl

theorem unmarked_enableContext (b : Bench) (c : Handle PollContext) :
    Unmarked b (b.enableContext c) := by
  unfold enableContext
  split
  · exact (Unmarked.refl b).setPhase c _
  · exact (Unmarked.refl b).record _ rfl

theorem unmarked_disableContext (b : Bench) (c : Handle PollContext) :
    Unmarked b (b.disableContext c).1 := by
  unfold disableContext
  split
  · exact .refl b
  · exact ((Unmarked.refl b).setPhase c _).record _ rfl
  · exact (Unmarked.refl b).setPhase c _

/-! ## What is asked of a context -/

/-- **At most one request.**  Either nothing was asked of a context, or it was idle and
took one request. -/
inductive Asked (c : Handle PollContext) (b b' : Bench) : Prop
  | not (phase : (b'.context c).phase = (b.context c).phase)
    (requests : b'.requests c = b.requests c)
  | once (idle : (b.context c).phase = .idle) (scheduled : (b'.context c).phase = .scheduled)
    (requests : b'.requests c = b.requests c + 1)

namespace Asked

theorem refl (c : Handle PollContext) (b : Bench) : Asked c b b :=
  .not rfl rfl

theorem of_unmarked (hc : b'.context c = b.context c) (hu : Unmarked b b') : Asked c b b' :=
  .not (by rw [hc]) (hu.requests c)

/-- A context that took a request takes no second one. -/
theorem trans (h : Asked c b b') (h' : Asked c b' b'') : Asked c b b'' := by
  cases h with
  | not hp hr =>
    cases h' with
    | not hp' hr' => exact .not (hp'.trans hp) (hr'.trans hr)
    | once hi hs hr' => exact .once (hp.symm.trans hi) hs (by rw [hr', hr])
  | once hi hs hr =>
    cases h' with
    | not hp' hr' => exact .once hi (hp'.trans hs) (hr'.trans hr)
    | once hi' _ _ => cases hs.symm.trans hi'

/-- Only an idle context changes its phase. -/
theorem phase_of_not_idle (h : Asked c b b') (hp : (b.context c).phase ≠ .idle) :
    (b'.context c).phase = (b.context c).phase := by
  cases h with
  | not hq _ => exact hq
  | once hi _ _ => exact absurd hi hp

end Asked

theorem OnlyCard.asked (h : OnlyCard n b b') (hu : Unmarked b b') (c : Handle PollContext) :
    Asked c b b' :=
  .of_unmarked (h.context_eq c) hu

theorem requests_request (b : Bench) (c k : Handle PollContext) :
    (b.request k).requests c = b.requests c + if k = c then 1 else 0 := by
  rw [request_eq, (unmarked_raise _ _).requests, requests_record,
    ((Unmarked.refl b).setPhase k _).requests]
  simp only [Event.poll.injEq, and_true]

theorem notifications_request (b : Bench) (k : Handle PollContext) (n : Handle Nic) :
    (b.request k).notifications n = b.notifications n := by
  rw [request_eq, (unmarked_raise _ _).notifications, notifications_record,
    ((Unmarked.refl b).setPhase k _).notifications]
  exact List.append_nil _

theorem notifications_schedule (b : Bench) (k : Handle PollContext) (n : Handle Nic) :
    (b.schedule k).1.notifications n = b.notifications n := by
  by_cases hi : (b.context k).phase = .idle
  · rw [schedule_of_idle hi, notifications_request]
  · rw [schedule_of_not_idle hi]

theorem asked_request_of_ne (h : c ≠ k) (b : Bench) : Asked c b (b.request k) := by
  refine .not (by rw [context_request_of_ne h]) ?_
  rw [requests_request, if_neg h.symm, Nat.add_zero]

theorem asked_schedule (c : Handle PollContext) (b : Bench) (k : Handle PollContext) :
    Asked c b (b.schedule k).1 := by
  by_cases hi : (b.context k).phase = .idle
  · rw [schedule_of_idle hi]
    by_cases hk : c = k
    · subst hk
      exact .once hi (phase_request b c) (by rw [requests_request, if_pos rfl])
    · exact asked_request_of_ne hk b
  · rw [schedule_of_not_idle hi]
    exact .refl c b

theorem asked_act (c : Handle PollContext) (n : Handle Nic) (b : Bench) (a : HandlerAction) :
    Asked c b (act n b a) := by
  cases a with
  | raise s => exact .of_unmarked rfl (unmarked_raise b s)
  | arm => exact .of_unmarked rfl ((Unmarked.refl b).modifyNic n _)
  | disarm => exact .of_unmarked rfl ((Unmarked.refl b).modifyNic n _)
  | schedule k => exact asked_schedule c b k

theorem asked_foldl_act (c : Handle PollContext) (n : Handle Nic) (as : List HandlerAction)
    (b : Bench) : Asked c b (as.foldl (act n) b) := by
  induction as generalizing b with
  | nil => exact .refl c b
  | cons a as ih => exact (asked_act c n b a).trans (ih _)

theorem asked_interrupt (c : Handle PollContext) (b : Bench) (n : Handle Nic) :
    Asked c b (b.interrupt n).1 := by
  unfold interrupt
  split
  · split
    · next as _ =>
      have hr : Asked c b (b.record (.nic n (.notified as))) :=
        .not rfl (by rw [requests_record, if_neg nofun, Nat.add_zero])
      exact hr.trans (asked_foldl_act c n as _)
    · exact .refl c b
  · exact .refl c b

theorem asked_rearm (c : Handle PollContext) (b : Bench) (n : Handle Nic) :
    Asked c b (b.rearm n) := by
  have ha : Asked c b (b.armLine n) := .of_unmarked rfl (unmarked_armLine b n)
  rw [rearm_eq]
  split
  · exact ha.trans (asked_interrupt c _ n)
  · exact ha

theorem asked_deliver (c : Handle PollContext) (b : Bench) (n : Handle Nic) (f : Frame) :
    Asked c b (b.deliver n f).1 := by
  have ha := (onlyCard_accept b n .receive f).asked (unmarked_accept b n .receive f) c
  cases h : (b.accept n .receive f).2 with
  | error r =>
    rw [deliver_of_error h]
    exact ha
  | ok =>
    rw [deliver_of_ok h]
    exact (ha.trans (asked_interrupt c _ n)).trans
      (.of_unmarked (context_recordIf ..) ((Unmarked.refl _).recordIf _ _ rfl))

theorem asked_transmit (c : Handle PollContext) (b : Bench) (n : Handle Nic) (f : Frame) :
    Asked c b (b.transmit n f).1 := by
  have ha := (onlyCard_accept b n .transmit f).asked (unmarked_accept b n .transmit f) c
  rcases b.transmit_cases n f with ht | ⟨t, -, ht⟩
  · rw [ht]
    exact ha
  · rw [ht]
    exact ha.trans (.of_unmarked rfl (unmarked_raise _ t))

theorem asked_cardStep (c : Handle PollContext) (n : Handle Nic) (b : Bench) (op : CardOp) :
    Asked c b (cardStep n b op) := by
  cases op with
  | setUp => exact (onlyCard_setUp b n).asked (unmarked_setUp b n) c
  | bringUp => exact (onlyCard_bringUp b n).asked (unmarked_bringUp b n) c
  | shutDown => exact (onlyCard_shutDown b n).asked (unmarked_shutDown b n) c
  | tearDown => exact (onlyCard_tearDown b n).asked (unmarked_tearDown b n) c
  | rearm => exact asked_rearm c b n
  | mask => exact (onlyCard_mask b n).asked (unmarked_mask b n) c
  | removeHandler => exact .of_unmarked rfl (unmarked_removeHandler b n)
  | transmit f => exact asked_transmit c b n f
  | deliver f => exact asked_deliver c b n f
  | take i => exact (onlyCard_take b n i).asked (unmarked_take b n i) c

/-! ## Runs -/

/-- Make a call. -/
def benchStep (b : Bench) : BenchOp → Bench
  | .card n op => cardStep n b op
  | .installHandler n as => b.installHandler n as
  | .setHook n s => b.setHook n s
  | .clearHook n => b.clearHook n
  | .enable c => b.enableContext c
  | .disable c => (b.disableContext c).1
  | .schedule c => (b.schedule c).1

/-- What happens beside the calls: something is counted or written down, a signal is
taken, parts come and go.  Cards and phases stay as they are, and no handler runs. -/
structure Beside (b b' : Bench) : Prop where
  nic : ∀ n, b'.nic n = b.nic n
  phase : ∀ c, (b'.context c).phase = (b.context c).phase
  unmarked : Unmarked b b'

theorem Beside.record {e : Event} (b : Bench) (he : e.isMark = false) : Beside b (b.record e) :=
  ⟨fun _ => rfl, fun _ => rfl, (Unmarked.refl b).record e he⟩

/-- The transfer of a pass, which calls the sink. -/
def passTransfer (c : Handle PollContext) (n : Handle Nic) (budget : Nat)
    (sink : Sink (γ × List Call)) (b : Bench) (g : γ) (l : List Call) :
    (Bench × γ × List Call) × Nat :=
  pump (·.take n .receive) sink budget (b.startPass c, g, l ++ [.polled c b])

/-- The trace at the end of a pass.  One that is complete arms the line of its card when
its context is idle again. -/
def passEndTrace (c : Handle PollContext) (n : Handle Nic) (handled budget : Nat) (b : Bench)
    (l : List Call) : List Call :=
  if handled < budget then l ++ [.made (.card n .rearm) (b.setPhase c .idle)] else l

/-- The trace when a poll is over. -/
def pollTrace (c : Handle PollContext) (n : Handle Nic) (budget : Nat)
    (sink : Sink (γ × List Call)) (b : Bench) (g : γ) (l : List Call) : List Call :=
  if (b.context c).phase = .scheduled then
    let (x, handled) := passTransfer c n budget sink b g l
    passEndTrace c n handled budget x.1 x.2.2
  else l ++ [.polled c b]

/-- **Runs, and the calls that they consist of.**  The calls of a sink are a run
themselves, which goes on where the trace stands when the sink is called. -/
inductive CallRun : Bench → List Call → Bench → List Call → Prop
  | done (b : Bench) (l : List Call) : CallRun b l b l
  | trans {b b' b'' : Bench} {l l' l'' : List Call} :
    CallRun b l b' l' → CallRun b' l' b'' l'' → CallRun b l b'' l''
  | call (b : Bench) (l : List Call) (op : BenchOp) :
    CallRun b l (benchStep b op) (l ++ [.made op b])
  /-- A transfer to the wire. -/
  | drain {γ : Type} (b : Bench) (l : List Call) (n : Handle Nic) (budget : Nat)
    (sink : Sink (γ × List Call)) (g : γ)
    (calls : ∀ f y, Hands (·.take n .transmit) sink budget (b, g, l) f y →
      CallRun y.1 y.2.2 (sink f y).1 (sink f y).2.2) :
    CallRun b l (drain n budget sink (b, g, l)).1.1 (drain n budget sink (b, g, l)).1.2.2
  /-- A transfer to the wire is under way, and its sink is called. -/
  | inDrain {γ : Type} (b : Bench) (l : List Call) (n : Handle Nic) (budget : Nat)
    (sink : Sink (γ × List Call)) (g : γ)
    (calls : ∀ f y, Hands (·.take n .transmit) sink budget (b, g, l) f y →
      CallRun y.1 y.2.2 (sink f y).1 (sink f y).2.2)
    (f : Frame) (y : Bench × γ × List Call)
    (h : Hands (·.take n .transmit) sink budget (b, g, l) f y) : CallRun b l y.1 y.2.2
  /-- A context is polled, with any card, budget and sink.  Only if it was scheduled a
  pass begins and calls the sink. -/
  | poll {γ : Type} (b : Bench) (l : List Call) (c : Handle PollContext) (n : Handle Nic)
    (budget : Nat) (sink : Sink (γ × List Call)) (g : γ)
    (calls : (b.context c).phase = .scheduled → ∀ f y, Hands (·.take n .receive) sink budget
      (b.startPass c, g, l ++ [.polled c b]) f y →
        CallRun y.1 y.2.2 (sink f y).1 (sink f y).2.2) :
    CallRun b l (poll c n budget sink (b, g, l ++ [.polled c b])).1.1
      (pollTrace c n budget sink b g l)
  /-- A pass is under way, and its sink is called. -/
  | inPass {γ : Type} (b : Bench) (l : List Call) (c : Handle PollContext) (n : Handle Nic)
    (budget : Nat) (sink : Sink (γ × List Call)) (g : γ)
    (calls : (b.context c).phase = .scheduled → ∀ f y, Hands (·.take n .receive) sink budget
      (b.startPass c, g, l ++ [.polled c b]) f y →
        CallRun y.1 y.2.2 (sink f y).1 (sink f y).2.2)
    (hp : (b.context c).phase = .scheduled) (f : Frame) (y : Bench × γ × List Call)
    (h : Hands (·.take n .receive) sink budget (b.startPass c, g, l ++ [.polled c b]) f y) :
    CallRun b l y.1 y.2.2
  | beside (b b' : Bench) (l : List Call) (h : Beside b b') : CallRun b l b' l

/-! ## Passes -/

section Passes

variable {sink : Sink (γ × List Call)} {g : γ} {budget : Nat} {i : Direction}
  {x y : Bench × γ × List Call} {R : Bench → List Call → Prop}

/-- Polling a context that is not scheduled is only written down. -/
theorem poll_of_not_scheduled (h : (b.context c).phase ≠ .scheduled) (n : Handle Nic)
    (budget : Nat) (sink : Sink (γ × List Call)) (g : γ) (l : List Call) :
    Beside b (poll c n budget sink (b, g, l ++ [.polled c b])).1.1 ∧
      pollTrace c n budget sink b g l = l ++ [.polled c b] := by
  refine ⟨?_, if_neg h⟩
  unfold poll
  split
  next b' g' hx =>
    obtain ⟨rfl, -⟩ := Prod.mk.inj hx
    split
    · next hs => exact absurd hs h
    · exact .record b rfl
    · exact .record b rfl

theorem poll_of_scheduled (h : (b.context c).phase = .scheduled) (n : Handle Nic)
    (budget : Nat) (sink : Sink (γ × List Call)) (g : γ) (l : List Call) :
    (poll c n budget sink (b, g, l ++ [.polled c b])).1.1 =
      (passTransfer c n budget sink b g l).1.1.endPass c n
        (passTransfer c n budget sink b g l).2 budget ∧
      pollTrace c n budget sink b g l =
        passEndTrace c n (passTransfer c n budget sink b g l).2 budget
          (passTransfer c n budget sink b g l).1.1 (passTransfer c n budget sink b g l).1.2.2 := by
  constructor
  · rw [poll, h]
    rfl
  · rw [pollTrace, if_pos h]

/-- What taking a frame and the calls of the sink preserve, a transfer preserves. -/
theorem pump_keeps (htake : ∀ b l, R b l → R (b.take n i).1 l)
    (hcall : ∀ f (y : Bench × γ × List Call), Hands (·.take n i) sink budget x f y →
      R y.1 y.2.2 → R (sink f y).1 (sink f y).2.2) (hx : R x.1 x.2.2) :
    R (pump (·.take n i) sink budget x).1.1 (pump (·.take n i) sink budget x).1.2.2 :=
  pump_of_hands (P := fun y : Bench × γ × List Call => R y.1 y.2.2) (Q := fun _ y => R y.1 y.2.2)
    (fun _ _ hb _ => htake _ _ hb) (fun _ _ _ hb _ => htake _ _ hb) budget hcall hx

theorem Hands.keeps (h : Hands (·.take n i) sink budget x f y)
    (htake : ∀ b l, R b l → R (b.take n i).1 l)
    (hcall : ∀ f (y : Bench × γ × List Call), Hands (·.take n i) sink budget x f y →
      R y.1 y.2.2 → R (sink f y).1 (sink f y).2.2) (hx : R x.1 x.2.2) : R y.1 y.2.2 :=
  h.invariant (P := fun y : Bench × γ × List Call => R y.1 y.2.2) (Q := fun _ y => R y.1 y.2.2)
    (fun _ _ _ hb _ => htake _ _ hb) hcall hx

end Passes

/-! ## A pass that is running -/

theorem context_enableContext_of_ne (h : c ≠ k) (b : Bench) :
    (b.enableContext k).context c = b.context c := by
  unfold enableContext
  split
  · exact context_setPhase_of_ne h b _
  · rfl

theorem context_disableContext_of_ne (h : c ≠ k) (b : Bench) :
    (b.disableContext k).1.context c = b.context c := by
  unfold disableContext
  split
  · rfl
  · exact context_setPhase_of_ne h b _
  · exact context_setPhase_of_ne h b _

/-- Whoever disables a context whose pass is running waits for the end of the pass. -/
theorem disableContext_of_draining (h : (b.context c).phase = .draining) :
    (b.disableContext c).1 = b := by
  rw [disableContext, h]

theorem phase_startPass (b : Bench) (c : Handle PollContext) :
    ((b.startPass c).context c).phase = .draining :=
  congrArg PollContext.phase (context_setPhase b c .draining)

/-- No call ends a pass that is running. -/
theorem draining_benchStep (h : (b.context c).phase = .draining) (op : BenchOp) :
    ((benchStep b op).context c).phase = .draining := by
  have hni : (b.context c).phase ≠ .idle := by
    rw [h]
    decide
  cases op with
  | card n op => exact ((asked_cardStep c n b op).phase_of_not_idle hni).trans h
  | installHandler n as => rw [benchStep, (onlyCard_installHandler b n as).context_eq, h]
  | setHook n s => exact h
  | clearHook n => exact h
  | enable k =>
    show ((b.enableContext k).context c).phase = .draining
    by_cases hk : c = k
    · subst hk
      rw [phase_enableContext, h]
      rfl
    · rw [context_enableContext_of_ne hk, h]
  | disable k =>
    show ((b.disableContext k).1.context c).phase = .draining
    by_cases hk : c = k
    · subst hk
      rw [disableContext_of_draining h, h]
    · rw [context_disableContext_of_ne hk, h]
  | schedule k => exact ((asked_schedule c b k).phase_of_not_idle hni).trans h

/-- Nor does the end of another one. -/
theorem draining_endPass (h : (b.context c).phase = .draining) (hk : c ≠ k) (n : Handle Nic)
    (handled budget : Nat) : ((b.endPass k n handled budget).context c).phase = .draining := by
  unfold endPass
  dsimp only
  rw [context_record]
  split
  · refine draining_benchStep (b := b.setPhase k .idle) ?_ (.card n .rearm)
    rw [context_setPhase_of_ne hk, h]
  · rw [context_request_of_ne hk, h]

/-- **A pass runs until its own end.**  Whatever calls are made meanwhile, its context
stays where it is. -/
theorem CallRun.draining (hr : CallRun b l b' l') (h : (b.context c).phase = .draining) :
    (b'.context c).phase = .draining := by
  have htake : ∀ n i (b : Bench) (_ : List Call), (b.context c).phase = .draining →
      ((b.take n i).1.context c).phase = .draining := by
    intro n i b _ hb
    rw [(onlyCard_take b n i).context_eq, hb]
  -- A pass that begins meanwhile is that of another context.
  have begun : ∀ (b : Bench) k, (b.context k).phase = .scheduled →
      (b.context c).phase = .draining → c ≠ k ∧ ((b.startPass k).context c).phase = .draining := by
    intro b k hk hb
    have hne : c ≠ k := by
      rintro rfl
      cases hb.symm.trans hk
    exact ⟨hne, (congrArg PollContext.phase (context_setPhase_of_ne hne b .draining)).trans hb⟩
  induction hr with
  | done b l => exact h
  | trans _ _ ih₁ ih₂ => exact ih₂ (ih₁ h)
  | call b l op => exact draining_benchStep h op
  | drain b l n budget sink g _ ih =>
    exact pump_keeps (R := fun b _ => (b.context c).phase = .draining) (htake n .transmit) ih h
  | inDrain b l n budget sink g _ f y hy ih =>
    exact hy.keeps (R := fun b _ => (b.context c).phase = .draining) (htake n .transmit) ih h
  | poll b l k n budget sink g _ ih =>
    by_cases hk : (b.context k).phase = .scheduled
    · obtain ⟨hne, hs⟩ := begun b k hk h
      rw [(poll_of_scheduled hk n budget sink g l).1]
      refine draining_endPass ?_ hne n _ budget
      exact pump_keeps (R := fun b _ => (b.context c).phase = .draining) (htake n .receive)
        (ih hk) hs
    · rw [(poll_of_not_scheduled hk n budget sink g l).1.phase, h]
  | inPass b l k n budget sink g _ hk f y hy ih =>
    exact hy.keeps (R := fun b _ => (b.context c).phase = .draining) (htake n .receive)
      (ih hk) (begun b k hk h).2
  | beside b b' l hb => rw [hb.phase, h]

/-! ## Invariants -/

/-- A property of a bench and of the calls made so far is preserved by everything that a
run consists of. -/
structure StepInvariant (P : Bench → List Call → Prop) : Prop where
  call : ∀ b l op, P b l → P (benchStep b op) (l ++ [.made op b])
  take : ∀ b l n i, P b l → P (b.take n i).1 l
  beside : ∀ b b' l, Beside b b' → P b l → P b' l
  passBegins : ∀ b l c, (b.context c).phase = .scheduled → P b l →
    P (b.startPass c) (l ++ [.polled c b])
  /-- A context is polled that is not scheduled. -/
  noPass : ∀ b l c, (b.context c).phase ≠ .scheduled → P b l → P b (l ++ [.polled c b])
  passEnds : ∀ b l c, (b.context c).phase = .draining → P b l → P (b.setPhase c .idle) l
  passGoesOn : ∀ b l c, (b.context c).phase = .draining → P b l → P (b.request c) l

namespace StepInvariant

variable {P : Bench → List Call → Prop}

theorem endPass (hP : StepInvariant P) (hd : (b.context c).phase = .draining) (h : P b l)
    (n : Handle Nic) (handled budget : Nat) :
    P (b.endPass c n handled budget) (passEndTrace c n handled budget b l) := by
  have hdone : ∀ b' l, P b' l → P (b'.record (.poll c (.passDone handled budget
      (decide (handled < budget))))) l := fun b' l => hP.beside b' _ l (.record b' rfl)
  unfold Bench.endPass passEndTrace
  dsimp only
  split
  · exact hdone _ _ (hP.call _ l (.card n .rearm) (hP.passEnds b l c hd h))
  · exact hdone _ _ (hP.passGoesOn b l c hd h)

end StepInvariant

/-- **What every step preserves, a run preserves.** -/
theorem CallRun.keep {P : Bench → List Call → Prop} (hP : StepInvariant P)
    (hr : CallRun b l b' l') (h : P b l) : P b' l' := by
  -- The calls of a sink are runs themselves, so the induction covers them too.
  induction hr with
  | done b l => exact h
  | trans _ _ ih₁ ih₂ => exact ih₂ (ih₁ h)
  | call b l op => exact hP.call b l op h
  | drain b l n budget sink g _ ih =>
    exact pump_keeps (R := P) (fun b l => hP.take b l n .transmit) ih h
  | inDrain b l n budget sink g _ f y hy ih =>
    exact hy.keeps (R := P) (fun b l => hP.take b l n .transmit) ih h
  | poll b l c n budget sink g calls ih =>
    by_cases hc : (b.context c).phase = .scheduled
    · obtain ⟨hb, hl⟩ := poll_of_scheduled hc n budget sink g l
      rw [hb, hl]
      -- At its end the pass must still be running for its context.
      have hd := pump_keeps (R := fun b _ => (b.context c).phase = .draining)
        (fun b _ hb => by rw [(onlyCard_take b n .receive).context_eq, hb])
        (fun f y hy => (calls hc f y hy).draining) (phase_startPass b c)
      exact hP.endPass hd (pump_keeps (R := P) (fun b l => hP.take b l n .receive) (ih hc)
        (hP.passBegins b l c hc h)) n _ budget
    · obtain ⟨hb, hl⟩ := poll_of_not_scheduled hc n budget sink g l
      rw [hl]
      exact hP.beside _ _ _ hb (hP.noPass b l c hc h)
  | inPass b l c n budget sink g _ hc f y hy ih =>
    exact hy.keeps (R := P) (fun b l => hP.take b l n .receive) (ih hc)
      (hP.passBegins b l c hc h)
  | beside b b' l hb => exact hP.beside b b' l hb h

/-- A property holds now, and it held whenever a call was made. -/
structure Always (P : Bench → List Call → Prop) (b : Bench) (l : List Call) : Prop where
  now : P b l
  before : ∀ pre x, pre ++ [x] <+: l → P x.found pre

namespace Always

variable {P : Bench → List Call → Prop}

theorem nil (h : P b []) : Always P b [] := by
  refine ⟨h, fun pre x hx => ?_⟩
  exact absurd (List.prefix_nil.mp hx) (by simp)

theorem same (h : Always P b l) (h' : P b' l) : Always P b' l :=
  ⟨h', h.before⟩

/-- The next call finds the bench as it is now. -/
theorem called (h : Always P b l) {x : Call} (hx : x.found = b) (h' : P b' (l ++ [x])) :
    Always P b' (l ++ [x]) := by
  refine ⟨h', fun pre y hy => ?_⟩
  rcases List.prefix_concat_iff.mp hy with heq | hpre
  · obtain ⟨rfl, hl⟩ := List.append_inj' heq rfl
    obtain rfl := List.singleton_inj.mp hl
    rw [hx]
    exact h.now
  · exact h.before pre y hpre

end Always

/-- **What every step preserves was never broken.** -/
theorem StepInvariant.always {P : Bench → List Call → Prop} (hP : StepInvariant P) :
    StepInvariant (Always P) where
  call b l op h := h.called rfl (hP.call b l op h.now)
  take b l n i h := h.same (hP.take b l n i h.now)
  beside b b' l hb h := h.same (hP.beside b b' l hb h.now)
  passBegins b l c hc h := h.called rfl (hP.passBegins b l c hc h.now)
  noPass b l c hc h := h.called rfl (hP.noPass b l c hc h.now)
  passEnds b l c hc h := h.same (hP.passEnds b l c hc h.now)
  passGoesOn b l c hc h := h.same (hP.passGoesOn b l c hc h.now)

end Bench
end SoftNic
