import SoftNic.Proofs.Drainable

/-! # Budgets bound every transfer

A sink may do whatever can be done with the cards (`Operating`): it may refill the ring
that is being drained, drain it itself, shut the card down or tear it down, or poll another
context.  So a transfer cannot be bounded by what was queued when it began.  The budget
bounds it (`Bounded`).  And if a transfer stops before the budget is used up, its last look
has found the ring empty: what the gate hides is empty too, whatever the sink has done.

A pass is such a transfer, between its beginning and its end.
-/
namespace SoftNic
namespace Bench

variable {γ : Type} {n : Handle Nic} {i : Direction} {sink : Sink γ} {budget : Nat} {b : Bench}
  {g : γ}

/-- **A budget bounds a transfer**, which begins on a bench and comes to an outcome. -/
structure Bounded (n : Handle Nic) (i : Direction) (sink : Sink γ) (budget : Nat) (b : Bench)
    (g : γ) (out : (Bench × γ) × Nat) : Prop where
  /-- No loop goes on forever, wherever it begins. -/
  terminates : WellFounded fun y x => Round n i sink budget x y
  /-- The loop that begins here stops at the outcome, and nowhere else. -/
  stops : ∀ s, (Relation.ReflTransGen (Round n i sink budget) ((b, g), 0) s ∧
    ∀ y, ¬ Round n i sink budget s y) ↔ s = out
  /-- A sink that keeps the frames that it is handed has kept as many as were counted. -/
  calls : ∀ fs, ∃ hs : List Frame, hs.length = out.2 ∧
    pump (·.take n i) (noting sink) budget (b, g, fs) = ((out.1.1, out.1.2, fs ++ hs), out.2)
  le : out.2 ≤ budget
  /-- Whoever stops early has seen the ring empty. -/
  empty : out.2 < budget → ((out.1.1.nic n).ring i).toList = []

/-- A sink that does what it may leaves the card in a state that it can get into. -/
theorem Reachable.pump (h : Reachable n b) (hs : Operating n sink) (i : Direction)
    (budget : Nat) (g : γ) : Reachable n (pump (·.take n i) sink budget (b, g)).1.1 :=
  h.trans (.pump (x := (b, g)) trivial fun f y _ => hs f y)

theorem bounded_pump (h : Reachable n b) (hs : Operating n sink) (i : Direction) (budget : Nat)
    (g : γ) : Bounded n i sink budget b g (pump (·.take n i) sink budget (b, g)) where
  terminates := wellFounded_round n i sink budget
  stops := stops_iff_pump
  calls := pump_noting _ sink budget b g
  le := pump_le _ sink budget (b, g)
  empty hshort := by
    have hsealed := (h.pump hs i budget g).sealed
    rw [← List.head?_eq_none_iff, ← hsealed.take_snd i]
    exact take_pump_of_short hshort

/-- The beginning of a pass changes no card. -/
theorem Reachable.startPass (h : Reachable n b) (c : Handle PollContext) :
    Reachable n (b.startPass c) :=
  h.trans ((Reaches.refl n _ b).elsewhere rfl)

/-- Polling a context that waits for it is a transfer between the two ends of a pass. -/
theorem poll_eq_pump {c : Handle PollContext} (hc : (b.context c).phase = .scheduled)
    (n : Handle Nic) (budget : Nat) (sink : Sink γ) (g : γ) :
    poll c n budget sink (b, g) =
      let out := pump (·.take n .receive) sink budget (b.startPass c, g)
      ((out.1.1.endPass c n out.2 budget, out.1.2), .ok ⟨out.2, decide (out.2 < budget)⟩) := by
  rw [poll, hc]

/-- **Budgets bound the wire and the passes**, in whatever state the card is and whatever
the sink does.  A pass is complete exactly if it has stayed below its budget. -/
theorem bounded_drain_and_poll (h : Reachable n b) (hs : Operating n sink) (budget : Nat)
    (g : γ) :
    Bounded n .transmit sink budget b g (drain n budget sink (b, g)) ∧
      ∀ c, (b.context c).phase = .scheduled → ∃ out pass,
        Bounded n .receive sink budget (b.startPass c) g out ∧
          poll c n budget sink (b, g) =
            ((out.1.1.endPass c n out.2 budget, out.1.2), .ok pass) ∧
          pass.handled = out.2 ∧ (pass.complete = true ↔ pass.handled < budget) ∧
          (pass.handled < budget → ((poll c n budget sink (b, g)).1.1.nic n).rx.toList = []) := by
  refine ⟨bounded_pump h hs .transmit budget g, fun c hc => ?_⟩
  have hb := bounded_pump (h.startPass c) hs .receive budget g
  rw [poll_eq_pump hc n budget sink g]
  generalize pump (·.take n .receive) sink budget (b.startPass c, g) = out at hb ⊢
  refine ⟨out, _, hb, rfl, rfl, decide_eq_true_iff, fun hshort => ?_⟩
  -- The end of a pass interrupts at most, and that moves no frame.
  have hrx : ((out.1.1.endPass c n out.2 budget).nic n).rx = (out.1.1.nic n).rx :=
    (interrupted_endPass out.1.1 c n out.2 budget).ring_eq .receive
  rw [hrx]
  exact hb.empty hshort

/-- A sink that answers each frame with another one in the ring that it came from. -/
def refilling (n : Handle Nic) (f : Frame) : Sink Unit := fun _ (b, u) =>
  (((b.transmit n f).1.deliver n f).1, u)

theorem operating_refilling (n : Handle Nic) (f : Frame) : Operating n (refilling n f) :=
  fun _ y => ((Reaches.refl n _ y.1).call (.card n (.transmit f)) trivial).call
    (.card n (.deliver f)) trivial

/-- A sink that never lets the rings run empty.  A pass and the wire stop all the same. -/
theorem bounded_drain_and_poll_refilling :
    ∃ b, Reachable ⟨0⟩ b ∧ Operating ⟨0⟩ (refilling ⟨0⟩ ⟨[7]⟩) ∧
      (b.context ⟨0⟩).phase = .scheduled ∧
      (drain ⟨0⟩ 3 (refilling ⟨0⟩ ⟨[7]⟩) (b, ())).2 = 3 ∧
      ((drain ⟨0⟩ 3 (refilling ⟨0⟩ ⟨[7]⟩) (b, ())).1.1.nic ⟨0⟩).tx.toList = [⟨[7]⟩] ∧
      Bounded ⟨0⟩ .transmit (refilling ⟨0⟩ ⟨[7]⟩) 3 b ()
        (drain ⟨0⟩ 3 (refilling ⟨0⟩ ⟨[7]⟩) (b, ())) ∧
      ∃ out pass, Bounded ⟨0⟩ .receive (refilling ⟨0⟩ ⟨[7]⟩) 3 (b.startPass ⟨0⟩) () out ∧
        (poll ⟨0⟩ ⟨0⟩ 3 (refilling ⟨0⟩ ⟨[7]⟩) (b, ())).2 = .ok pass ∧ pass.handled = out.2 ∧
        (pass.complete = true ↔ pass.handled < 3) := by
  obtain ⟨x, hx⟩ : ∃ x, Nic.ofSizes 2 2 = .ok x := ⟨_, rfl⟩
  let b₁ : Bench := ((default : Bench).addNic x).2
  let b₂ : Bench := (b₁.addContext ⟨0⟩).2
  let b₃ := b₂.enableContext ⟨0⟩
  let b₄ := b₃.bringUp ⟨0⟩
  let b₅ := (b₄.transmit ⟨0⟩ ⟨[1]⟩).1
  let b₆ := (b₅.deliver ⟨0⟩ ⟨[2]⟩).1
  let b₇ := (b₆.schedule ⟨0⟩).1
  have added : b₂.nic ⟨0⟩ = b₁.nic ⟨0⟩ := rfl
  have run : Reaches ⟨0⟩ (fun _ => True) b₁ b₇ :=
    ((((((Reaches.refl _ _ b₁).elsewhere added).call (.enable ⟨0⟩) trivial).call
      (.card ⟨0⟩ .bringUp) trivial).call (.card ⟨0⟩ (.transmit ⟨[1]⟩)) trivial).call
        (.card ⟨0⟩ (.deliver ⟨[2]⟩)) trivial).call (.schedule ⟨0⟩) trivial
  have h : Reachable ⟨0⟩ b₇ := ⟨2, 2, x, default, b₁, hx, rfl, run⟩
  have hs := operating_refilling ⟨0⟩ ⟨[7]⟩
  obtain rfl := Except.ok.inj hx
  have hc : (b₇.context ⟨0⟩).phase = .scheduled := by decide +kernel
  obtain ⟨hwire, hpass⟩ := bounded_drain_and_poll h hs 3 ()
  obtain ⟨out, pass, hb, hpoll, hk, hcomplete, -⟩ := hpass ⟨0⟩ hc
  exact ⟨b₇, h, hs, hc, by decide +kernel, by decide +kernel, hwire, out, pass, hb,
    congrArg Prod.snd hpoll, hk, hcomplete⟩

end Bench
end SoftNic
