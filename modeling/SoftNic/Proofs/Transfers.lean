import Mathlib.Logic.Relation
import SoftNic.Proofs.Footprint

/-! # Transfers as loops

A transfer is a loop: while the budget is not used up, look at the ring; if a frame can be
taken, hand it to the sink and look again.  `Round` is one turn of that loop, between
states that say how many frames were handed over so far.  Since the sink may put frames
back into the ring, the ring says nothing about how long the loop goes on.  What shrinks
in each round is the rest of the budget, so that no loop goes on forever
(`wellFounded_round`), and the state in which it stops is what `pump` says
(`stops_iff_pump`).

What a sink is handed can be kept beside it (`noting`).  If the sink leaves the ring
alone, that is the front of the ring (`pump_of_ring_kept`).
-/
namespace SoftNic
namespace Bench

variable {γ : Type} {next : Bench → Bench × Option Frame} {n : Handle Nic} {i : Direction}
  {sink : Sink γ} {budget : Nat} {b : Bench} {x : Bench × γ}

/-! ## Rounds -/

/-- One round of the loop. -/
inductive Round (n : Handle Nic) (i : Direction) (sink : Sink γ) (budget : Nat) :
    (Bench × γ) × Nat → (Bench × γ) × Nat → Prop
  | handed {b b' : Bench} {g : γ} {f : Frame} {k : Nat} (hk : k < budget)
    (ht : b.take n i = (b', some f)) : Round n i sink budget ((b, g), k) (sink f (b', g), k + 1)

/-- Each round uses up a part of the budget, and no sink can give it back. -/
theorem wellFounded_round (n : Handle Nic) (i : Direction) (sink : Sink γ) (budget : Nat) :
    WellFounded fun y x => Round n i sink budget x y := by
  refine Subrelation.wf ?_ (measure fun x : (Bench × γ) × Nat => budget - x.2).wf
  rintro y x ⟨hk, -⟩
  exact Nat.sub_succ_lt_self _ _ hk

/-- What comes next is settled. -/
theorem rightUnique_round (n : Handle Nic) (i : Direction) (sink : Sink γ) (budget : Nat) :
    Relator.RightUnique (Round n i sink budget) := by
  rintro x y z ⟨-, hy⟩ hz
  cases hz with
  | handed _ hz =>
    obtain ⟨rfl, hf⟩ := Prod.mk.inj (hy.symm.trans hz)
    obtain rfl := Option.some.inj hf
    rfl

/-- The rounds of a transfer that has handed over some frames already. -/
theorem rounds_pump (m : Nat) : ∀ (x : Bench × γ) (k : Nat), k + m = budget →
    Relation.ReflTransGen (Round n i sink budget) (x, k)
      ((pump (·.take n i) sink m x).1, k + (pump (·.take n i) sink m x).2) := by
  induction m with
  | zero => exact fun _ _ _ => .refl
  | succ m ih =>
    rintro ⟨b, g⟩ k hk
    rw [pump]
    split
    · next b' h =>
      -- A look that finds nothing changes nothing.
      obtain ⟨rfl, -⟩ := Prod.mk.inj (h.symm.trans (take_of_none (congrArg Prod.snd h)))
      exact .refl
    · next b' f h =>
      have hr := ih (sink f (b', g)) (k + 1) (by omega)
      rw [Nat.add_right_comm, Nat.add_assoc] at hr
      exact .head (.handed (by omega) h) hr

/-- A transfer that stays below its budget ends because there is no more. -/
theorem pump_short (h : (pump next sink budget x).2 < budget) :
    ∃ b₀, next b₀ = ((pump next sink budget x).1.1, none) := by
  induction budget generalizing x with
  | zero => exact absurd h (Nat.not_lt_zero _)
  | succ budget ih =>
    obtain ⟨b, g⟩ := x
    rw [pump] at h ⊢
    split at h
    · next b' hb => exact ⟨b, hb⟩
    · next b' f hb => exact ih (Nat.lt_of_succ_lt_succ h)

/-- A transfer that stays below its budget finds nothing at its last look. -/
theorem take_pump_of_short (h : (pump (·.take n i) sink budget x).2 < budget) :
    ((pump (·.take n i) sink budget x).1.1.take n i).2 = none := by
  obtain ⟨b₀, hnone⟩ := pump_short h
  have hb := take_of_none (congrArg Prod.snd hnone)
  rw [hnone] at hb
  rw [(Prod.mk.inj hb).1, hnone]

/-- Then the ring is empty, or nothing can be taken from it. -/
theorem ring_pump_of_short (h : (pump (·.take n i) sink budget x).2 < budget)
    (hd : ((pump (·.take n i) sink budget x).1.1.nic n).gate.phase.canDrain = true) :
    (((pump (·.take n i) sink budget x).1.1.nic n).ring i).toList = [] := by
  rcases (pump (·.take n i) sink budget x).1.1.take_cases n i with ⟨hnil, -⟩ | ⟨-, f, r, -, hf, -⟩
  · exact hnil hd
  · rw [take_pump_of_short h] at hf
    cases hf

/-- A round needs a rest of the budget and a frame. -/
theorem Round.takes {s y : (Bench × γ) × Nat} (h : Round n i sink budget s y) :
    s.2 < budget ∧ (s.1.1.take n i).2 ≠ none := by
  obtain ⟨hk, ht⟩ := h
  exact ⟨hk, by rw [ht]; nofun⟩

/-- After a transfer, there is no further round. -/
theorem not_round_pump (y : (Bench × γ) × Nat) :
    ¬ Round n i sink budget (pump (·.take n i) sink budget x) y := fun h =>
  h.takes.2 (take_pump_of_short h.takes.1)

/-- **Where the loop stops.**  It is the outcome of the transfer, whichever way it is
looked for. -/
theorem stops_iff_pump (s : (Bench × γ) × Nat) :
    (Relation.ReflTransGen (Round n i sink budget) (x, 0) s ∧
        ∀ y, ¬ Round n i sink budget s y) ↔
      s = pump (·.take n i) sink budget x := by
  have hp : Relation.ReflTransGen (Round n i sink budget) (x, 0)
      (pump (·.take n i) sink budget x) := by
    have h : Relation.ReflTransGen (Round n i sink budget) (x, 0)
        ((pump (·.take n i) sink budget x).1, 0 + (pump (·.take n i) sink budget x).2) :=
      rounds_pump budget x 0 (Nat.zero_add _)
    rwa [Nat.zero_add] at h
  constructor
  · rintro ⟨hs, hlast⟩
    rcases hs.total_of_right_unique (rightUnique_round n i sink budget) hp with h | h
    · rcases h.cases_head with heq | ⟨y, hy, -⟩
      · exact heq
      · exact absurd hy (hlast y)
    · rcases h.cases_head with heq | ⟨y, hy, -⟩
      · exact heq.symm
      · exact absurd hy (not_round_pump y)
  · rintro rfl
    exact ⟨hp, not_round_pump⟩

/-! ## What the sink is handed -/

/-- A sink that keeps every frame that it is handed. -/
def noting (sink : Sink γ) : Sink (γ × List Frame) := fun f (b, g, fs) =>
  let (b, g) := sink f (b, g)
  (b, g, fs ++ [f])

/-- **One call for each frame that is counted**, and keeping the frames changes nothing
else. -/
theorem pump_noting (next : Bench → Bench × Option Frame) (sink : Sink γ) (budget : Nat)
    (b : Bench) (g : γ) (fs : List Frame) : ∃ hs : List Frame,
    hs.length = (pump next sink budget (b, g)).2 ∧
      pump next (noting sink) budget (b, g, fs) =
        (((pump next sink budget (b, g)).1.1, (pump next sink budget (b, g)).1.2, fs ++ hs),
          (pump next sink budget (b, g)).2) := by
  induction budget generalizing b g fs with
  | zero => exact ⟨[], rfl, by rw [List.append_nil]; rfl⟩
  | succ budget ih =>
    rw [pump, pump]
    split
    · exact ⟨[], rfl, by rw [List.append_nil]⟩
    · next b' f _ =>
      obtain ⟨hs, hlen, heq⟩ := ih (sink f (b', g)).1 (sink f (b', g)).2 (fs ++ [f])
      refine ⟨f :: hs, congrArg (· + 1) hlen, ?_⟩
      rw [noting]
      dsimp only
      rw [heq, List.append_assoc]
      rfl

/-- **A transfer whose sink leaves the ring alone** hands over the front of the ring, as
far as the budget goes, and the rest stays; provided that nothing is queued where nothing
can be taken.  What one frame preserves, told with the frames that were handed over so far,
holds at the end. -/
theorem pump_of_ring_kept (sink : Sink γ) (P : List Frame → Bench × γ → Prop)
    {fs : List Frame} (hx : P fs x)
    (hkeep : ∀ f y, (((sink f y).1.nic n).ring i).toList = ((y.1.nic n).ring i).toList ∧
      ((sink f y).1.nic n).gate.phase = (y.1.nic n).gate.phase)
    (hstep : ∀ fs f b g, P fs (b, g) → (b.take n i).2 = some f →
      P (fs ++ [f]) (sink f ((b.take n i).1, g)))
    (hd : (x.1.nic n).gate.phase.canDrain = false → ((x.1.nic n).ring i).toList = [])
    (budget : Nat) :
    (pump (·.take n i) sink budget x).2 = min budget ((x.1.nic n).ring i).toList.length ∧
      (((pump (·.take n i) sink budget x).1.1.nic n).ring i).toList =
        ((x.1.nic n).ring i).toList.drop budget ∧
      P (fs ++ ((x.1.nic n).ring i).toList.take budget) (pump (·.take n i) sink budget x).1 := by
  induction budget generalizing x fs with
  | zero =>
    rw [List.take_zero, List.append_nil]
    exact ⟨(Nat.zero_min _).symm, rfl, hx⟩
  | succ budget ih =>
    obtain ⟨b, g⟩ := x
    rw [pump]
    rcases b.take_cases n i with ⟨hnil, ht⟩ | ⟨hopen, f, r, hr, hf, hn⟩
    · have hempty : ((b.nic n).ring i).toList = [] := by
        cases hc : (b.nic n).gate.phase.canDrain with
        | true => exact hnil hc
        | false => exact hd hc
      rw [ht, hempty, List.take_nil, List.append_nil]
      exact ⟨rfl, rfl, hx⟩
    · rw [show b.take n i = ((b.take n i).1, some f) from Prod.ext rfl hf]
      obtain ⟨hring, hphase⟩ := hkeep f ((b.take n i).1, g)
      dsimp only at hring hphase
      rw [hn, Nic.ring_setRing_self] at hring
      rw [(b.take_control n i).gate] at hphase
      have hrest := ih (hstep fs f b g hx hf)
        (fun hc => by rw [hphase, hopen] at hc; cases hc)
      rw [hring, List.append_assoc] at hrest
      rw [show ((b.nic n).ring i).toList = f :: r.toList from Ring.toList_of_dequeue? hr,
        List.take_succ_cons, List.length_cons, List.drop_succ_cons, Nat.succ_min_succ, ← hrest.1]
      exact ⟨rfl, hrest.2⟩

/-- A sink that only collects gets the front of the ring. -/
theorem pump_gather
    (hd : (b.nic n).gate.phase.canDrain = false → ((b.nic n).ring i).toList = [])
    (budget : Nat) (fs : List Frame) :
    (pump (·.take n i) gather budget (b, fs)).2 =
        min budget ((b.nic n).ring i).toList.length ∧
      (pump (·.take n i) gather budget (b, fs)).1.2 =
        fs ++ ((b.nic n).ring i).toList.take budget ∧
      (((pump (·.take n i) gather budget (b, fs)).1.1.nic n).ring i).toList =
        ((b.nic n).ring i).toList.drop budget := by
  have hx : (b, fs).2 = fs := rfl
  obtain ⟨hk, hr, hg⟩ := pump_of_ring_kept gather (fun fs y => y.2 = fs) hx
    (fun _ _ => ⟨rfl, rfl⟩) (fun _ _ _ _ h _ => congrArg (· ++ _) h) hd budget
  exact ⟨hk, hg, hr⟩

end Bench
end SoftNic
