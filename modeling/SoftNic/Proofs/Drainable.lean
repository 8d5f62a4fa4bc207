import SoftNic.Proofs.CallTrace
import SoftNic.Proofs.Traffic
import SoftNic.Proofs.Transfers

/-! # The gate strands no frame

Whoever wants a frame asks the gate first, and the ring only if the gate lets him.  So a
frame would be lost for good in a ring behind a gate that is closed for readers.  This
module proves that there is none: whatever is done with a card, nothing is queued while
nothing can be taken (`Sealed`).  The reason is that each call does one of three things
with the rings (`turnover_benchStep`): it empties both, it leaves them as they are up to
what it gives to a reader, or it finds the card ready and leaves it ready.

A run says beside the last bench what the readers of the card were given (`Operated`).  It
consists of single calls; a transfer is a run too, if each call of its sink is one, and so
is a poll (`Reaches.pump`, `Reaches.poll`), also one that is still under way
(`Reaches.hands`).
-/
namespace SoftNic

/-- What the readers of a card are given, oldest frame first. -/
abbrev Takings := Direction → List Frame

namespace Bench

variable {γ : Type} {n m : Handle Nic} {i : Direction} {may : BenchOp → Prop}
  {t u : Takings} {o : BenchOp} {sink : Sink γ} {budget : Nat} {x y : Bench × γ} {f : Frame}
  {b b' b'' : Bench}

/-! ## Runs of a card -/

/-- What a call gives to the readers of a card. -/
def given (n : Handle Nic) (b : Bench) (o : BenchOp) : Takings := fun i =>
  if o = .card n (.take i) then (b.take n i).2.toList else []

/-- **A run, seen from a card**: calls of the permitted kinds are made, on whichever card,
and the readers of this one are given frames.  Between the calls, anything may happen to
the rest of the bench. -/
inductive Operated (n : Handle Nic) (may : BenchOp → Prop) : Bench → Takings → Bench → Prop
  | done (b : Bench) : Operated n may b (fun _ => []) b
  | call {b b' : Bench} {t : Takings} (o : BenchOp) (ho : may o) (h : Operated n may b t b') :
    Operated n may b (fun i => t i ++ given n b' o i) (benchStep b' o)
  | elsewhere {b b' b'' : Bench} {t : Takings} (h : Operated n may b t b')
    (hn : b''.nic n = b'.nic n) : Operated n may b t b''

theorem Operated.trans (h : Operated n may b t b') (k : Operated n may b' u b'') :
    Operated n may b (fun i => t i ++ u i) b'' := by
  induction k with
  | done => simpa only [List.append_nil] using h
  | call o ho _ ih => simpa only [List.append_assoc] using ih.call o ho
  | elsewhere _ hn ih => exact ih.elsewhere hn

/-- There is a run from one bench to another. -/
def Reaches (n : Handle Nic) (may : BenchOp → Prop) (b b' : Bench) : Prop :=
  ∃ t, Operated n may b t b'

namespace Reaches

theorem refl (n : Handle Nic) (may : BenchOp → Prop) (b : Bench) : Reaches n may b b :=
  ⟨_, .done b⟩

theorem trans (h : Reaches n may b b') (k : Reaches n may b' b'') : Reaches n may b b'' := by
  obtain ⟨t, ht⟩ := h
  obtain ⟨u, hu⟩ := k
  exact ⟨_, ht.trans hu⟩

theorem call (h : Reaches n may b b') (o : BenchOp) (ho : may o) :
    Reaches n may b (benchStep b' o) := by
  obtain ⟨t, ht⟩ := h
  exact ⟨_, ht.call o ho⟩

theorem elsewhere (h : Reaches n may b b') (hn : b''.nic n = b'.nic n) : Reaches n may b b'' := by
  obtain ⟨t, ht⟩ := h
  exact ⟨t, ht.elsewhere hn⟩

/-- A transfer takes frames out of the ring of any card, and its sink is called. -/
theorem pump (ht : may (.card m (.take i)))
    (calls : ∀ f y, Hands (·.take m i) sink budget x f y → Reaches n may y.1 (sink f y).1) :
    Reaches n may x.1 (pump (·.take m i) sink budget x).1.1 :=
  pump_of_hands (P := fun y => Reaches n may x.1 y.1) (Q := fun _ y => Reaches n may x.1 y.1)
    (fun _ _ h _ => h.call _ ht) (fun _ _ _ h _ => h.call _ ht) budget
    (fun f y hy h => h.trans (calls f y hy)) (refl n may x.1)

/-- So it does before each of these calls. -/
theorem hands (hy : Hands (·.take m i) sink budget x f y) (ht : may (.card m (.take i)))
    (calls : ∀ f y, Hands (·.take m i) sink budget x f y → Reaches n may y.1 (sink f y).1) :
    Reaches n may x.1 y.1 :=
  hy.invariant (P := fun y => Reaches n may x.1 y.1) (Q := fun _ y => Reaches n may x.1 y.1)
    (fun _ _ _ h _ => h.call _ ht) (fun f y hy h => h.trans (calls f y hy)) (refl n may x.1)

/-- A pass that comes to its end. -/
theorem endPass (h : Reaches n may b b') (hr : may (.card m .rearm)) (c : Handle PollContext)
    (handled budget : Nat) : Reaches n may b (b'.endPass c m handled budget) := by
  unfold Bench.endPass
  dsimp only
  refine elsewhere ?_ (nic_record ..)
  split
  · exact (h.elsewhere (nic_setPhase b' c .idle n)).call (.card m .rearm) hr
  · exact h.elsewhere rfl

/-- A poll with a sink that may do anything. -/
theorem poll (ht : may (.card m (.take .receive))) (hr : may (.card m .rearm))
    (hsink : ∀ f y, Reaches n may y.1 (sink f y).1) (c : Handle PollContext) (budget : Nat) :
    Reaches n may x.1 (poll c m budget sink x).1.1 := by
  unfold Bench.poll
  dsimp only
  split
  · refine (trans ?_ (pump ht fun f y _ => hsink f y)).endPass hr c _ budget
    exact (refl n may x.1).elsewhere rfl
  · exact (refl n may x.1).elsewhere rfl
  · exact (refl n may x.1).elsewhere rfl

end Reaches

/-- A sink that does whatever can be done with the cards. -/
def Operating (n : Handle Nic) (sink : Sink γ) : Prop :=
  ∀ f y, Reaches n (fun _ => True) y.1 (sink f y).1

/-- A state that a card can get into: it was new, and then it was used. -/
def Reachable (n : Handle Nic) (b : Bench) : Prop :=
  ∃ (tx rx : Nat) (x : Nic) (b₀ b₁ : Bench), Nic.ofSizes tx rx = .ok x ∧
    b₀.addNic x = (n, b₁) ∧ Reaches n (fun _ => True) b₁ b

theorem Reachable.trans (h : Reachable n b) (k : Reaches n (fun _ => True) b b') :
    Reachable n b' := by
  obtain ⟨tx, rx, x, b₀, b₁, hx, hn, hr⟩ := h
  exact ⟨tx, rx, x, b₀, b₁, hx, hn, hr.trans k⟩

/-! ## What a call does with the rings -/

/-- A call that does not set the rings of a card up anew. -/
def Calm (n : Handle Nic) (o : BenchOp) : Prop :=
  o ≠ .card n .setUp ∧ o ≠ .card n .bringUp ∧ o ≠ .card n .tearDown

/-- **What becomes of the rings of a card.** -/
inductive Turnover (n : Handle Nic) (b : Bench) (o : BenchOp) : Prop
  | emptied (ho : ¬ Calm n o) (h : ∀ i, (((benchStep b o).nic n).ring i).toList = [])
  | kept (drain : ((benchStep b o).nic n).gate.phase.canDrain = (b.nic n).gate.phase.canDrain)
    (ready : (b.nic n).gate.isReady = false → ((benchStep b o).nic n).gate.isReady = false)
    (rings : ∀ i, ((b.nic n).ring i).toList =
      given n b o i ++ (((benchStep b o).nic n).ring i).toList)
  | queued (before : (b.nic n).gate.isReady = true)
    (after : ((benchStep b o).nic n).gate.isReady = true)

namespace Turnover

/-- A call that touches neither the phase of the card nor its rings. -/
theorem of_same (ho : ∀ i, o ≠ .card n (.take i))
    (hp : ((benchStep b o).nic n).gate.phase = (b.nic n).gate.phase)
    (hr : ∀ i, ((benchStep b o).nic n).ring i = (b.nic n).ring i) : Turnover n b o := by
  refine .kept (by rw [hp]) (fun h => by rw [Gate.isReady, hp, ← Gate.isReady, h]) fun i => ?_
  rw [given, if_neg (ho i), hr i, List.nil_append]

theorem of_nic_eq (ho : ∀ i, o ≠ .card n (.take i))
    (hn : (benchStep b o).nic n = b.nic n) : Turnover n b o :=
  .of_same ho (by rw [hn]) fun i => by rw [hn]

/-- A call that changes nothing but the handler or the hook. -/
theorem of_slots {handler : Option (List HandlerAction)} {hook : Option (Handle Signal)}
    (ho : ∀ i, o ≠ .card n (.take i))
    (hn : (benchStep b o).nic n = { b.nic n with handler, hook }) : Turnover n b o :=
  .of_same ho (by rw [hn]) fun i => by rw [hn]; cases i <;> rfl

/-- A call that does nothing but interrupt. -/
theorem of_interrupted (ho : ∀ i, o ≠ .card n (.take i))
    (hi : Interrupted n b (benchStep b o)) : Turnover n b o :=
  .of_same ho hi.phase_eq hi.ring_eq

/-- A call that offers the card a frame. -/
theorem of_accept {d : Direction} (ho : ∀ i, o ≠ .card n (.take i))
    (hi : Interrupted n (b.accept n d f).1 (benchStep b o)) : Turnover n b o := by
  have hp : ((benchStep b o).nic n).gate.phase = (b.nic n).gate.phase := by
    rw [hi.phase_eq, (b.accept_control n d f).gate]
  have refused : (b.accept n d f).1.nic n = (b.nic n).countRefused d → Turnover n b o :=
    fun hn => .of_same ho hp fun e => by rw [hi.ring_eq, hn, Nic.ring_countRefused]
  rcases b.accept_cases n d f with ⟨-, -, hn⟩ | ⟨-, -, -, hn⟩ | ⟨hr, -, -⟩
  · exact refused hn
  · exact refused hn
  · exact .queued hr (by rw [Gate.isReady, hp, ← Gate.isReady, hr])

end Turnover

theorem turnover_setUp (n : Handle Nic) (b : Bench) : Turnover n b (.card n .setUp) := by
  by_cases hr : (b.nic n).gate.isReady = true
  · exact .of_nic_eq nofun (nic_setUp_of_ready hr)
  · refine .emptied (fun h => h.1 rfl) fun i => ?_
    rw [show (benchStep b (.card n .setUp)).nic n = _ from nic_setUp_of_not_ready hr]
    exact (b.nic n).toList_ring_emptied i

theorem turnover_bringUp (n : Handle Nic) (b : Bench) : Turnover n b (.card n .bringUp) := by
  by_cases hr : (b.nic n).gate.isReady = true
  · exact .of_nic_eq nofun (nic_bringUp_of_ready hr)
  · refine .emptied (fun h => h.2.1 rfl) fun i => ?_
    rw [show (benchStep b (.card n .bringUp)).nic n = _ from nic_bringUp_of_not_ready hr]
    exact (b.nic n).toList_ring_emptied i

theorem turnover_tearDown (n : Handle Nic) (b : Bench) : Turnover n b (.card n .tearDown) := by
  refine .emptied (fun h => h.2.2 rfl) fun i => ?_
  rw [show (benchStep b (.card n .tearDown)).nic n = _ from b.nic_tearDown n]
  exact (b.nic n).toList_ring_emptied i

/-- A card that is shut down can still be read. -/
theorem turnover_shutDown (n : Handle Nic) (b : Bench) : Turnover n b (.card n .shutDown) := by
  have hn : (benchStep b (.card n .shutDown)).nic n =
      { b.nic n with gate := (b.nic n).gate.shut } := b.nic_shutDown n
  refine .kept ?_ (fun _ => ?_) fun i => ?_
  · rw [hn]
    obtain ⟨phase, armed⟩ := (b.nic n).gate
    cases phase <;> rfl
  · rw [hn, Gate.isReady_shut]
  · rw [given, if_neg nofun, hn]
    cases i <;> rfl

/-- A frame that leaves a ring is given to the reader. -/
theorem turnover_take (n : Handle Nic) (i : Direction) (b : Bench) :
    Turnover n b (.card n (.take i)) := by
  have hc := (b.take_control n i).gate
  refine .kept ?_ (fun h => ?_) fun e => ?_
  · show ((b.take n i).1.nic n).gate.phase.canDrain = _
    rw [hc]
  · show ((b.take n i).1.nic n).gate.isReady = false
    rw [hc, h]
  · show ((b.nic n).ring e).toList = given n b (.card n (.take i)) e ++
      (((b.take n i).1.nic n).ring e).toList
    rw [given]
    rcases b.take_cases n i with ⟨-, ht⟩ | ⟨-, f, r, hr, hf, hn⟩
    · rw [ht]
      split
      · next he =>
        cases he
        rw [ht]
        rfl
      · rfl
    · rw [hn]
      split
      · next he =>
        cases he
        rw [hf, Nic.ring_setRing_self]
        exact Ring.toList_of_dequeue? hr
      · next he =>
        rw [Nic.ring_setRing_of_ne _ (fun h => he (by rw [h])), List.nil_append]

/-- **Each call does one of the three.** -/
theorem turnover_benchStep (n : Handle Nic) (b : Bench) (o : BenchOp) : Turnover n b o := by
  cases o with
  | card m op =>
    by_cases hm : n = m
    · subst hm
      cases op with
      | setUp => exact turnover_setUp n b
      | bringUp => exact turnover_bringUp n b
      | shutDown => exact turnover_shutDown n b
      | tearDown => exact turnover_tearDown n b
      | rearm => exact .of_interrupted nofun (b.interrupted_rearm n)
      | mask => exact .of_interrupted nofun (interrupted_modifyGate n b false)
      | removeHandler => exact .of_slots nofun (nic_removeHandler b n)
      | transmit f => exact .of_accept nofun (b.transmit_eq n f).2
      | deliver f => exact .of_accept nofun (b.deliver_eq n f).2
      | take i => exact turnover_take n i b
    · refine .of_nic_eq (fun i h => ?_) ((atCard_cardStep m b op).nic n hm)
      cases h
      exact hm rfl
  | installHandler m as =>
    by_cases hm : n = m
    · subst hm
      exact .of_slots nofun (nic_installHandler b n as)
    · exact .of_nic_eq nofun ((onlyCard_installHandler b m as).nic n hm)
  | setHook m s =>
    by_cases hm : n = m
    · subst hm
      exact .of_slots nofun (nic_setHook b n s)
    · exact .of_nic_eq nofun (b.nic_modifyNic_of_ne hm _)
  | clearHook m =>
    by_cases hm : n = m
    · subst hm
      exact .of_slots nofun (nic_clearHook b n)
    · exact .of_nic_eq nofun (b.nic_modifyNic_of_ne hm _)
  | enable c =>
    exact .of_interrupted nofun (interrupted_enableContext n b c).1
  | disable c =>
    refine .of_nic_eq nofun ?_
    show (b.disableContext c).1.nic n = b.nic n
    unfold disableContext
    split <;> rfl
  | schedule c => exact .of_interrupted nofun (interrupted_schedule n b c)

/-- What has not been made ready takes no frame in: a call leaves at most the newest part
of a ring. -/
theorem suffix_of_not_ready (h : (b.nic n).gate.isReady = false) (o : BenchOp) (i : Direction) :
    (((benchStep b o).nic n).ring i).toList <:+ ((b.nic n).ring i).toList := by
  cases turnover_benchStep n b o with
  | emptied _ hnil =>
    rw [hnil i]
    exact List.nil_suffix
  | kept _ _ rings =>
    rw [rings i]
    exact List.suffix_append ..
  | queued before _ =>
    rw [h] at before
    cases before

/-! ## Nothing behind a closed gate -/

/-- **The invariant**: while nothing can be taken from a card, nothing is queued in it. -/
def Sealed (n : Handle Nic) (b : Bench) : Prop :=
  (b.nic n).gate.phase.canDrain = false → ∀ i, ((b.nic n).ring i).toList = []

theorem Gate.canDrain_of_isReady {g : Gate} (h : g.isReady = true) : g.phase.canDrain = true := by
  obtain ⟨phase, armed⟩ := g
  cases phase with
  | ready => rfl
  | uninitialized => cases h
  | shuttingDown => cases h

namespace Sealed

theorem call (h : Sealed n b) (o : BenchOp) : Sealed n (benchStep b o) := by
  intro hd i
  cases turnover_benchStep n b o with
  | emptied _ hnil => exact hnil i
  | kept drain _ rings =>
    have hnil := h (drain.symm.trans hd) i
    rw [rings i] at hnil
    exact (List.append_eq_nil_iff.mp hnil).2
  | queued _ after =>
    rw [Gate.canDrain_of_isReady after] at hd
    cases hd

theorem operated (h : Sealed n b) (hr : Operated n may b t b') : Sealed n b' := by
  induction hr with
  | done => exact h
  | call o _ _ ih => exact ih.call o
  | elsewhere _ hn ih =>
    unfold Sealed
    rw [hn]
    exact ih

/-- A reader is given the oldest frame, if there is one. -/
theorem take_snd (h : Sealed n b) (i : Direction) :
    (b.take n i).2 = ((b.nic n).ring i).toList.head? := by
  rcases b.take_cases n i with ⟨hnil, ht⟩ | ⟨-, f, r, hr, hf, -⟩
  · have hempty : ((b.nic n).ring i).toList = [] := by
      cases hd : (b.nic n).gate.phase.canDrain with
      | true => exact hnil hd
      | false => exact h hd i
    rw [ht, hempty, List.head?_nil]
  · rw [hf, show ((b.nic n).ring i).toList = f :: r.toList from Ring.toList_of_dequeue? hr,
      List.head?_cons]

end Sealed

theorem Reachable.sealed (h : Reachable n b) : Sealed n b := by
  obtain ⟨tx, rx, x, b₀, b₁, hx, hn, t, ht⟩ := h
  refine Sealed.operated (fun _ i => ?_) ht
  rw [nic_of_addNic hn]
  exact (Nic.new_of_ofSizes hx).2.2.2 i

/-! ## After the card was shut down -/

/-- **A card that is down gives away what it has, and nothing else happens to its rings**,
until they are set up anew. -/
theorem Operated.calm (hr : Operated n (Calm n) b t b') (h : (b.nic n).gate.isReady = false) :
    (b'.nic n).gate.isReady = false ∧
      ∀ i, t i ++ ((b'.nic n).ring i).toList = ((b.nic n).ring i).toList := by
  induction hr with
  | done => exact ⟨h, fun _ => rfl⟩
  | @call b' t o ho _ ih =>
    obtain ⟨hdown, hrings⟩ := ih
    cases turnover_benchStep n b' o with
    | emptied hno _ => exact absurd ho hno
    | kept _ ready rings =>
      refine ⟨ready hdown, fun i => ?_⟩
      rw [List.append_assoc, ← rings i, hrings i]
    | queued before _ =>
      rw [hdown] at before
      cases before
  | elsewhere _ hn ih =>
    rw [hn]
    exact ih

/-- **No frame that is queued in a card is hidden or stranded.** -/
structure NothingStranded (n : Handle Nic) (b : Bench) : Prop where
  uninitialized : (b.nic n).gate.phase = .uninitialized → ∀ i, ((b.nic n).ring i).toList = []
  /-- A call finds the card ready, or it adds nothing to what is queued. -/
  growth : ∀ o, (b.nic n).gate.isReady = true ∨
    ∀ i, (((benchStep b o).nic n).ring i).toList <:+ ((b.nic n).ring i).toList
  take : ∀ i, (b.take n i).2 = none ↔ ((b.nic n).ring i).toList = []
  drain : ∀ budget fs, 1 ≤ budget →
    ((drain n budget gather (b, fs)).2 = 0 ↔ (b.nic n).tx.toList = [])
  /-- Shut the card down, and do whatever does not set its rings up anew.  What was queued
  was given to the readers, or it is still queued; and who asks for it gets it. -/
  afterShutDown : ∀ t b', Operated n (Calm n) (b.shutDown n) t b' → ∀ i,
    t i ++ ((b'.nic n).ring i).toList = ((b.nic n).ring i).toList ∧
      (b'.take n i).2 = ((b'.nic n).ring i).toList.head? ∧
      ∀ budget, (pump (·.take n i) gather budget (b', [])).1.2 =
          ((b'.nic n).ring i).toList.take budget ∧
        (((pump (·.take n i) gather budget (b', [])).1.1.nic n).ring i).toList =
          ((b'.nic n).ring i).toList.drop budget

/-- **The gate strands no frame**, in whatever state a card can get into. -/
theorem nothingStranded_of_reachable (h : Reachable n b) : NothingStranded n b := by
  have hs := h.sealed
  have htake : ∀ i, (b.take n i).2 = none ↔ ((b.nic n).ring i).toList = [] := fun i => by
    rw [hs.take_snd i, List.head?_eq_none_iff]
  refine ⟨fun hp => hs (by rw [hp]; rfl), fun o => ?_, htake, fun budget fs hb => ?_, ?_⟩
  · cases hr : (b.nic n).gate.isReady with
    | true => exact Or.inl rfl
    | false => exact Or.inr fun i => suffix_of_not_ready hr o i
  · rw [Bench.drain, (pump_gather (hs · .transmit) budget fs).1, Nat.min_eq_zero_iff,
      List.length_eq_zero_iff]
    exact ⟨fun h => h.resolve_left (by omega), Or.inr⟩
  · intro t b' hr i
    have hn := b.nic_shutDown n
    have hdown : ((b.shutDown n).nic n).gate.isReady = false := by
      rw [hn, Gate.isReady_shut]
    have hs' : Sealed n b' := (hs.call (.card n .shutDown)).operated hr
    refine ⟨?_, hs'.take_snd i, fun budget => (pump_gather (hs' · i) budget []).2⟩
    rw [(hr.calm hdown).2 i, hn]
    cases i <;> rfl

/-- A card that was brought up, has sent a frame and received another, and was shut
down. -/
theorem nothingStranded_of_reachable_shut :
    ∃ b, Reachable ⟨0⟩ b ∧ (b.nic ⟨0⟩).gate.phase = .shuttingDown ∧
      (b.nic ⟨0⟩).tx.toList = [⟨[1]⟩] ∧ (b.nic ⟨0⟩).rx.toList = [⟨[2]⟩] ∧
      NothingStranded ⟨0⟩ b := by
  obtain ⟨x, hx⟩ : ∃ x, Nic.ofSizes 2 2 = .ok x := ⟨_, rfl⟩
  let b₁ : Bench := ((default : Bench).addNic x).2
  let b₂ := b₁.bringUp ⟨0⟩
  let b₃ := (b₂.transmit ⟨0⟩ ⟨[1]⟩).1
  let b₄ := (b₃.deliver ⟨0⟩ ⟨[2]⟩).1
  let b₅ := b₄.shutDown ⟨0⟩
  have run : Reaches ⟨0⟩ (fun _ => True) b₁ b₅ :=
    ((((Reaches.refl _ _ b₁).call (.card ⟨0⟩ .bringUp) trivial).call
      (.card ⟨0⟩ (.transmit ⟨[1]⟩)) trivial).call (.card ⟨0⟩ (.deliver ⟨[2]⟩)) trivial).call
        (.card ⟨0⟩ .shutDown) trivial
  have h : Reachable ⟨0⟩ b₅ := ⟨2, 2, x, default, b₁, hx, rfl, run⟩
  obtain rfl := Except.ok.inj hx
  exact ⟨b₅, h, by decide +kernel, by decide +kernel, by decide +kernel,
    nothingStranded_of_reachable h⟩

end Bench
end SoftNic
