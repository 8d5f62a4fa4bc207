import SoftNic.Proofs.Footprint

/-! # No frame is lost, doubled or overtaken

Whoever drives a card can keep a ledger of it from the answers alone: a frame
enters a ring when the card says that it accepted it, and leaves the ring when
a reader is given it, when it is among the leftovers of a card torn down, or
when the rings are released because the card is set up or brought up.  This
module proves that the two columns of the ledger differ by exactly what is in
the ring: what has entered, oldest first, is what has left, in the order in
which it left, followed by the ring.

The runs are those of a client that calls the operations of the card in any
order (`CardRun`).  A transfer to the wire calls a sink, and the sink is such a
client again: while the transfer is under way it may send, drain, set up or
tear down the same card.  Between two calls anything may happen to the rest of
the bench.
-/
namespace SoftNic

/-- What has entered the rings of a card and what has left them, oldest
first. -/
structure Ledger where
  entered : Direction → List Frame := fun _ => []
  left : Direction → List Frame := fun _ => []

namespace Ledger

/-- A frame enters a ring. -/
def enter (l : Ledger) (d : Direction) (f : Frame) : Ledger :=
  { l with entered := fun e => if e = d then l.entered e ++ [f] else l.entered e }

/-- A frame enters a ring if the card says so. -/
def enterIf (l : Ledger) (answer : Except Rejection Unit) (d : Direction) (f : Frame) : Ledger :=
  match answer with
  | .ok () => l.enter d f
  | .error _ => l

/-- Frames leave a ring, one after the other. -/
def leave (l : Ledger) (d : Direction) (fs : List Frame) : Ledger :=
  { l with left := fun e => if e = d then l.left e ++ fs else l.left e }

/-- A card gives its leftovers back. -/
def giveBack (l : Ledger) (x : Leftovers) : Ledger :=
  (l.leave .transmit x.tx).leave .receive x.rx

/-- The rings of a card are released, unless it is ready. -/
def releaseUnlessReady (l : Ledger) (x : Nic) : Ledger :=
  if x.gate.isReady then l else l.giveBack ⟨x.tx.drainAll.1, x.rx.drainAll.1⟩

theorem left_giveBack (l : Ledger) (x : Leftovers) (d : Direction) :
    (l.giveBack x).left d = l.left d ++ (match d with | .transmit => x.tx | .receive => x.rx) := by
  cases d <;> simp [giveBack, leave]

end Ledger

namespace Bench

variable {γ : Type} {n : Handle Nic}

/-! ## Runs -/

/-- The ledger after a transfer to the wire.  Each frame has left the ring when
the sink gets it; `book` says what the calls of the sink come to. -/
def drainLedger (n : Handle Nic) (sink : Sink γ) (book : Frame → Bench × γ → Ledger → Ledger) :
    Nat → Bench × γ → Ledger → Ledger
  | 0, _, l => l
  | budget + 1, (b, g), l =>
    match b.take n .transmit with
    | (_, none) => l
    | (b, some f) =>
      drainLedger n sink book budget (sink f (b, g)) (book f (b, g) (l.leave .transmit [f]))

/-- **What a client can do with a card**, and what it writes into its ledger. -/
inductive CardRun (n : Handle Nic) : Bench → Ledger → Bench → Ledger → Prop
  | done (b : Bench) (l : Ledger) : CardRun n b l b l
  | trans {b b' b'' : Bench} {l l' l'' : Ledger} :
    CardRun n b l b' l' → CardRun n b' l' b'' l'' → CardRun n b l b'' l''
  | setUp (b : Bench) (l : Ledger) :
    CardRun n b l (b.setUp n) (l.releaseUnlessReady (b.nic n))
  | bringUp (b : Bench) (l : Ledger) :
    CardRun n b l (b.bringUp n) (l.releaseUnlessReady (b.nic n))
  | shutDown (b : Bench) (l : Ledger) : CardRun n b l (b.shutDown n) l
  | tearDown (b : Bench) (l : Ledger) :
    CardRun n b l (b.tearDown n).1 (l.giveBack (b.tearDown n).2)
  | rearm (b : Bench) (l : Ledger) : CardRun n b l (b.rearm n) l
  | mask (b : Bench) (l : Ledger) : CardRun n b l (b.mask n) l
  | installHandler (b : Bench) (l : Ledger) (actions : List HandlerAction) :
    CardRun n b l (b.installHandler n actions) l
  | removeHandler (b : Bench) (l : Ledger) : CardRun n b l (b.removeHandler n) l
  | setHook (b : Bench) (l : Ledger) (s : Handle Signal) : CardRun n b l (b.setHook n s) l
  | clearHook (b : Bench) (l : Ledger) : CardRun n b l (b.clearHook n) l
  | transmit (b : Bench) (l : Ledger) (f : Frame) :
    CardRun n b l (b.transmit n f).1 (l.enterIf (b.transmit n f).2 .transmit f)
  | deliver (b : Bench) (l : Ledger) (f : Frame) :
    CardRun n b l (b.deliver n f).1 (l.enterIf (b.deliver n f).2 .receive f)
  | receive (b : Bench) (l : Ledger) :
    CardRun n b l (b.take n .receive).1 (l.leave .receive (b.take n .receive).2.toList)
  /-- A transfer to the wire; each call of the sink is a run itself. -/
  | drain {γ : Type} (b : Bench) (l : Ledger) (budget : Nat) (sink : Sink γ) (g : γ)
    (book : Frame → Bench × γ → Ledger → Ledger)
    (calls : ∀ f b g l, CardRun n b l (sink f (b, g)).1 (book f (b, g) l)) :
    CardRun n b l (drain n budget sink (b, g)).1.1 (drainLedger n sink book budget (b, g) l)
  /-- Something happens elsewhere on the bench. -/
  | elsewhere (b b' : Bench) (l : Ledger) (h : b'.nic n = b.nic n) : CardRun n b l b' l

/-! ## The balance -/

/-- **The ledger balances**: what has entered is what has left, followed by
what is in the ring. -/
def Balanced (n : Handle Nic) (b : Bench) (l : Ledger) : Prop :=
  ∀ d, l.entered d = l.left d ++ ((b.nic n).ring d).toList

namespace Balanced

variable {b b' : Bench} {l : Ledger}

theorem of_ring_eq (h : Balanced n b l) (hr : ∀ d, (b'.nic n).ring d = (b.nic n).ring d) :
    Balanced n b' l := by
  intro d
  rw [hr d]
  exact h d

theorem of_interrupted (h : Balanced n b l) (hi : Interrupted n b b') : Balanced n b' l :=
  h.of_ring_eq hi.ring_eq

/-- Both rings lose all they have, and it is entered in the ledger. -/
theorem giveBack (h : Balanced n b l) (hr : ∀ d, ((b'.nic n).ring d).toList = []) :
    Balanced n b' (l.giveBack ⟨(b.nic n).tx.toList, (b.nic n).rx.toList⟩) := by
  intro d
  rw [hr d, List.append_nil, Ledger.left_giveBack]
  refine (h d).trans ?_
  cases d <;> rfl

theorem releaseUnlessReady (h : Balanced n b l)
    (hready : (b.nic n).gate.isReady = true → b'.nic n = b.nic n)
    (hnot : ¬ (b.nic n).gate.isReady = true → ∀ d, ((b'.nic n).ring d).toList = []) :
    Balanced n b' (l.releaseUnlessReady (b.nic n)) := by
  unfold Ledger.releaseUnlessReady
  split
  · next hr => exact h.of_ring_eq fun d => by rw [hready hr]
  · next hr =>
    rw [Ring.drainAll_fst, Ring.drainAll_fst]
    exact h.giveBack (hnot hr)

/-- A frame enters the ledger exactly when it enters the ring. -/
theorem accept (h : Balanced n b l) (d : Direction) (f : Frame) :
    Balanced n (b.accept n d f).1 (l.enterIf (b.accept n d f).2 d f) := by
  -- A refusal counts the frame and enters it nowhere.
  have refused : (b.accept n d f).1.nic n = (b.nic n).countRefused d →
      Balanced n (b.accept n d f).1 l := fun hn => h.of_ring_eq fun e => by
    rw [hn, Nic.ring_countRefused]
  rcases b.accept_cases n d f with ⟨-, ha, hn⟩ | ⟨-, -, ha, hn⟩ | ⟨-, ha, r, hr, hn⟩
  · rw [ha]
    exact refused hn
  · rw [ha]
    exact refused hn
  · rw [ha]
    intro e
    rw [hn, Nic.ring_countAccepted]
    by_cases he : e = d
    · subst he
      rw [Nic.ring_setRing_self, Ring.toList_of_enqueue? hr, ← List.append_assoc]
      simp [Ledger.enterIf, Ledger.enter, h e]
    · rw [Nic.ring_setRing_of_ne _ he]
      simp [Ledger.enterIf, Ledger.enter, he, h e]

theorem transmit (h : Balanced n b l) (f : Frame) :
    Balanced n (b.transmit n f).1 (l.enterIf (b.transmit n f).2 .transmit f) := by
  obtain ⟨hr, hi⟩ := b.transmit_eq n f
  rw [hr]
  exact (h.accept .transmit f).of_interrupted hi

theorem deliver (h : Balanced n b l) (f : Frame) :
    Balanced n (b.deliver n f).1 (l.enterIf (b.deliver n f).2 .receive f) := by
  obtain ⟨hr, hi⟩ := b.deliver_eq n f
  rw [hr]
  exact (h.accept .receive f).of_interrupted hi

/-- What a reader is given has left the ring. -/
theorem take (h : Balanced n b l) (d : Direction) :
    Balanced n (b.take n d).1 (l.leave d (b.take n d).2.toList) := by
  rcases b.take_cases n d with ⟨-, ht⟩ | ⟨-, f, r, hr, ht, hn⟩
  · rw [ht]
    intro e
    simp [Ledger.leave, h e]
  · rw [ht]
    intro e
    rw [hn]
    by_cases he : e = d
    · subst he
      rw [Nic.ring_setRing_self]
      simp [Ledger.leave, h e, Ring.toList_of_dequeue? hr]
    · rw [Nic.ring_setRing_of_ne _ he]
      simp [Ledger.leave, he, h e]

/-- A transfer keeps the balance if its sink does. -/
theorem drain {sink : Sink γ} {book : Frame → Bench × γ → Ledger → Ledger}
    (hsink : ∀ f b g l, Balanced n b l → Balanced n (sink f (b, g)).1 (book f (b, g) l))
    (budget : Nat) (g : γ) (h : Balanced n b l) :
    Balanced n (Bench.drain n budget sink (b, g)).1.1
      (drainLedger n sink book budget (b, g) l) := by
  induction budget generalizing b g l with
  | zero => exact h
  | succ budget ih =>
    -- By the time the sink is called, the frame has left the ring and the ledger says so.
    have ht := h.take .transmit
    rw [Bench.drain, pump, drainLedger]
    cases hb : b.take n .transmit with
    | mk b' o =>
      rw [hb] at ht
      cases o with
      | none =>
        intro e
        refine (ht e).trans ?_
        simp [Ledger.leave]
      | some f => exact ih _ (hsink f b' g _ ht)

end Balanced

/-- Whatever a client does, its ledger goes on to balance. -/
theorem CardRun.balanced {b b' : Bench} {l l' : Ledger} (hr : CardRun n b l b' l')
    (h : Balanced n b l) : Balanced n b' l' := by
  -- The calls of a sink are runs themselves, so the induction covers them too.
  induction hr with
  | done b l => exact h
  | trans _ _ ih₁ ih₂ => exact ih₂ (ih₁ h)
  | setUp b l =>
    refine h.releaseUnlessReady nic_setUp_of_ready fun hr d => ?_
    rw [nic_setUp_of_not_ready hr, Nic.toList_ring_emptied]
  | bringUp b l =>
    refine h.releaseUnlessReady nic_bringUp_of_ready fun hr d => ?_
    rw [nic_bringUp_of_not_ready hr]
    exact (b.nic n).toList_ring_emptied d
  | shutDown b l => exact h.of_ring_eq fun d => by rw [nic_shutDown]; cases d <;> rfl
  | tearDown b l =>
    rw [tearDown_snd]
    refine h.giveBack fun d => ?_
    rw [nic_tearDown]
    exact (b.nic n).toList_ring_emptied d
  | rearm b l => exact h.of_interrupted (b.interrupted_rearm n)
  | mask b l => exact h.of_ring_eq fun d => by rw [nic_mask]; cases d <;> rfl
  | installHandler b l as => exact h.of_ring_eq fun d => by rw [nic_installHandler]; cases d <;> rfl
  | removeHandler b l => exact h.of_ring_eq fun d => by rw [nic_removeHandler]; cases d <;> rfl
  | setHook b l s => exact h.of_ring_eq fun d => by rw [nic_setHook]; cases d <;> rfl
  | clearHook b l => exact h.of_ring_eq fun d => by rw [nic_clearHook]; cases d <;> rfl
  | transmit b l f => exact h.transmit f
  | deliver b l f => exact h.deliver f
  | receive b l => exact h.take .receive
  | drain b l budget sink g book _ ih => exact h.drain (fun f b g l hb => ih f b g l hb) budget g
  | elsewhere b b' l hn => exact h.of_ring_eq fun d => by rw [hn]

/-- **Conservation of frames.**  Put a new card of any sizes on any bench and
let a client run it, with sinks that run it again from inside a transfer.  In
either direction, the frames that entered the ring are the frames that left it,
in that order, followed by those that it holds. -/
theorem entered_eq_left_append_ring {tx rx : Nat} {x : Nic} (hx : Nic.ofSizes tx rx = .ok x)
    {b₀ b₁ b : Bench} {l : Ledger} (hn : b₀.addNic x = (n, b₁)) (hr : CardRun n b₁ {} b l)
    (d : Direction) : l.entered d = l.left d ++ ((b.nic n).ring d).toList := by
  refine hr.balanced ?_ d
  intro e
  rw [nic_of_addNic hn, (Nic.new_of_ofSizes hx).2.2.2 e]
  rfl

/-- A card of the least size, whose wire sends what it gets straight back into
the ring that it came from. -/
theorem entered_eq_left_append_ring_echo :
    ∃ x n b₁, Nic.ofSizes 2 2 = .ok x ∧ (default : Bench).addNic x = (n, b₁) ∧
      ∃ b l, CardRun n b₁ {} b l ∧ l.entered .transmit ≠ [] ∧
        ∀ d, l.entered d = l.left d ++ ((b.nic n).ring d).toList := by
  obtain ⟨x, hx⟩ : ∃ x, Nic.ofSizes 2 2 = .ok x := ⟨_, rfl⟩
  obtain ⟨n, b₁, hn⟩ : ∃ n b₁, (default : Bench).addNic x = (n, b₁) := ⟨_, _, rfl⟩
  let f : Frame := ⟨[1, 2, 3]⟩
  let echo : Sink Unit := fun f s => ((s.1.transmit n f).1, s.2)
  let book : Frame → Bench × Unit → Ledger → Ledger :=
    fun f s l => l.enterIf (s.1.transmit n f).2 .transmit f
  have run : CardRun n b₁ {} _ _ := ((CardRun.bringUp b₁ {}).trans (.transmit _ _ f)).trans
    (.drain _ _ 1 echo () book fun f b _ l => .transmit b l f)
  refine ⟨x, n, b₁, hx, hn, _, _, run, ?_, entered_eq_left_append_ring hx hn run⟩
  have down : ¬ (b₁.nic n).gate.isReady = true := by
    rw [nic_of_addNic hn, (Nic.new_of_ofSizes hx).1]
    decide
  -- The frame finds a ready card with an empty ring, so the run does enter something.
  have sent : ((b₁.bringUp n).transmit n f).2 = .ok () := by
    rw [(transmit_eq ..).1]
    refine accept_of_nil (isReady_bringUp b₁ n) ?_ f
    rw [nic_bringUp_of_not_ready down]
    exact (b₁.nic n).toList_ring_emptied .transmit
  -- What has entered is not forgotten by a transfer.
  have grows : ∀ b l, l.entered .transmit ≠ [] →
      (drainLedger n echo book 1 (b, ()) l).entered .transmit ≠ [] := by
    intro b l hl
    rw [drainLedger]
    split
    · exact hl
    · next b' f' _ =>
      rw [drainLedger]
      dsimp only [book, Ledger.enterIf]
      split
      · simp [Ledger.enter]
      · exact hl
  refine grows _ _ ?_
  rw [sent]
  simp [Ledger.enterIf, Ledger.enter]

end Bench
end SoftNic
