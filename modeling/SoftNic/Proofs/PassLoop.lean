import SoftNic.Proofs.Drainable
import SoftNic.Proofs.EndpointLoop
import SoftNic.Proofs.Increments

/-! # A run loop that catches up

While a device asks for passes, a run loop runs them (`Loops`).  A pass that uses up its
weight asks for the next one itself, so the loop goes on without anybody else; and it stops
with the first pass that sees the ring empty.  This module tells the whole loop: with `n`
frames waiting and a weight of `w`, there are `n / w` full passes, and then one that hands
over the remaining `n % w`, which may be none (`loops_until_empty`).

Each full pass takes `w` frames out of the ring and leaves everything else as the next one
needs it (`Waiting.full`), so the induction is on the number of full passes.
-/
namespace SoftNic
namespace Bench

variable {γ : Type} {d : Handle Device} {n : Handle Nic} {c : Handle PollContext}
  {s : Handle Signal} {sink : Sink γ} {b b' : Bench} {gs fs : List Frame}

/-! ## The loop -/

/-- While a pass is asked for, run one.  The list says what each pass answered, and what it
has left. -/
inductive Loops (d : Handle Device) (sink : Sink γ) :
    Bench × γ → List (Pass × Bench × γ) → Bench × γ → Prop
  | stops {x y : Bench × γ} (h : serve d sink x = (y, none)) : Loops d sink x [] y
  | goesOn {x y z : Bench × γ} {p : Pass} {l : List (Pass × Bench × γ)}
    (h : serve d sink x = (y, some (.ok p))) (hl : Loops d sink y l z) :
    Loops d sink x ((p, y) :: l) z

/-- A loop comes to one end at most, and in one way. -/
theorem Loops.unique {x y z : Bench × γ} {l l' : List (Pass × Bench × γ)}
    (h : Loops d sink x l y) (h' : Loops d sink x l' z) : l = l' ∧ y = z := by
  induction h generalizing l' z with
  | stops hs =>
    cases h' with
    | stops hs' => exact ⟨rfl, (Prod.mk.inj (hs.symm.trans hs')).1⟩
    | goesOn hs' _ => cases hs.symm.trans hs'
  | goesOn hs _ ih =>
    cases h' with
    | stops hs' => cases hs.symm.trans hs'
    | goesOn hs' hl' =>
      obtain ⟨rfl, hp⟩ := Prod.mk.inj (hs.symm.trans hs')
      obtain rfl := Except.ok.inj (Option.some.inj hp)
      obtain ⟨rfl, rfl⟩ := ih hl'
      exact ⟨rfl, rfl⟩

/-! ## One pass -/

/-- A device waits for its pass: its context is scheduled and has asked for it. -/
structure Waiting (d : Handle Device) (n : Handle Nic) (c : Handle PollContext)
    (s : Handle Signal) (b : Bench) : Prop extends Attached d n c s b where
  scheduled : (b.context c).phase = .scheduled
  pending : (b.signal s).isPending = true
  /-- Nothing is queued where nothing can be taken. -/
  drainable : (b.nic n).gate.phase.canDrain = false → (b.nic n).rx.toList = []

/-- The device has counted frames and its stack has collected them; for the rest nothing
differs but the receive ring. -/
structure Collected (d : Handle Device) (n : Handle Nic) (gs fs : List Frame) (b : Bench)
    (y : Bench × List Frame) : Prop where
  card : ∃ rx, y.1.nic n = { b.nic n with rx }
  contexts : y.1.contexts = b.contexts
  signals : y.1.signals = b.signals
  device : y.1.device d = (b.device d).plus (.ofReceived fs)
  stack : y.2 = gs ++ fs

theorem collected_nil (d : Handle Device) (n : Handle Nic) (gs : List Frame) (b : Bench) :
    Collected d n gs [] b (b, gs) where
  card := ⟨(b.nic n).rx, rfl⟩
  contexts := rfl
  signals := rfl
  device := (Device.plus_zero _).symm
  stack := (List.append_nil gs).symm

/-- One more frame is collected. -/
theorem Collected.snoc {f : Frame} {y : Bench × List Frame} (h : Collected d n gs fs b y)
    (ht : (y.1.take n .receive).2 = some f) :
    Collected d n gs (fs ++ [f]) b (counting d gather f ((y.1.take n .receive).1, y.2)) := by
  have ho := onlyCard_take y.1 n .receive
  refine ⟨?_, ho.contexts.trans h.contexts, ho.signals.trans h.signals, ?_, ?_⟩
  · obtain ⟨r, hn, -⟩ := take_of_some ht
    obtain ⟨rx, hrx⟩ := h.card
    refine ⟨r, hn.trans ?_⟩
    rw [hrx]
    rfl
  · refine (device_countDevice_self ((y.1.take n .receive).1.recordDevice d
      (.frameSeen Direction.receive.word f)) d (·.received f.length)).trans ?_
    rw [show ((y.1.take n .receive).1.recordDevice d _).device d = y.1.device d from ho.device_eq d,
      h.device, Counters.received_eq_plus, Counters.ofReceived_append, ← Device.plus_plus]
    rfl
  · show y.2 ++ [f] = gs ++ (fs ++ [f])
    rw [h.stack, List.append_assoc]

/-- The transfer of a pass, with a stack that only collects. -/
theorem pump_counting_gather (d : Handle Device)
    (hd : (b.nic n).gate.phase.canDrain = false → (b.nic n).rx.toList = []) (w : Nat)
    (gs : List Frame) :
    (pump (·.take n .receive) (counting d gather) w (b, gs)).2 =
        min w (b.nic n).rx.toList.length ∧
      ((pump (·.take n .receive) (counting d gather) w (b, gs)).1.1.nic n).rx.toList =
        (b.nic n).rx.toList.drop w ∧
      Collected d n gs ((b.nic n).rx.toList.take w) b
        (pump (·.take n .receive) (counting d gather) w (b, gs)).1 :=
  pump_of_ring_kept (i := .receive) (counting d gather) (Collected d n gs · b)
    (collected_nil d n gs b) (fun _ _ => ⟨rfl, rfl⟩) (fun _ _ _ _ h ht => h.snoc ht) hd w

/-- What a device that waits for its pass does when it is served. -/
theorem Waiting.serve_eq (h : Waiting d n c s b) {g : γ} {y : Bench × γ} {k : Nat}
    (hp : pump (·.take n .receive) (counting d sink) (b.device d).weight
      (b.passStart d c s, g) = (y, k)) :
    serve d sink (b, g) = ((y.1.endPass c n k (b.device d).weight, y.2),
      some (.ok ⟨k, decide (k < (b.device d).weight)⟩)) := by
  rw [serve_of_pending h.toAttached h.pending]
  rcases pollDevice_cases (h.takeSignal s) sink g with ⟨-, y', k', hy, hr⟩ | ⟨hq, -⟩ | ⟨hq, -⟩
  · obtain ⟨rfl, rfl⟩ := Prod.mk.inj (hy.symm.trans hp)
    rw [hr]
    rfl
  · cases h.scheduled.symm.trans hq
  · rcases hq with hq | hq
    · cases h.scheduled.symm.trans hq
    · cases h.scheduled.symm.trans hq

/-- A pass that uses up its budget asks for the next one. -/
theorem endPass_of_full {k w : Nat} (hk : ¬ k < w) (b : Bench) (c : Handle PollContext)
    (n : Handle Nic) :
    b.endPass c n k w = (b.request c).record (.poll c (.passDone k w (decide (k < w)))) := by
  rw [endPass, if_neg hk]

/-- One that leaves the ring empty arms the interrupt line, and that does not interrupt. -/
theorem endPass_of_empty {k w : Nat} (hk : k < w) (hnil : (b.nic n).rx.toList = [])
    (c : Handle PollContext) :
    b.endPass c n k w =
      ((b.setPhase c .idle).armLine n).record (.poll c (.passDone k w (decide (k < w)))) := by
  have hempty : ((b.setPhase c .idle).nic n).rx.isEmpty = true := (Ring.isEmpty_iff _).mpr hnil
  rw [endPass, if_pos hk, rearm_eq, hempty, Bool.not_true, Bool.and_false,
    if_neg Bool.false_ne_true]

/-- Collecting frames leaves the ties of the device as they are. -/
theorem Collected.attached {y : Bench × List Frame} (h : Collected d n gs fs b y)
    (ha : Attached d n c s b) : Attached d n c s y.1 where
  nic_eq := by rw [h.device]; exact ha.nic_eq
  context_eq := by rw [h.device]; exact ha.context_eq
  request_eq := by rw [context, h.contexts, ← context]; exact ha.request_eq

/-- A device has caught up: its context is idle, it asks for nothing, its card may
interrupt, and nothing is queued. -/
structure CaughtUp (d : Handle Device) (n : Handle Nic) (c : Handle PollContext)
    (s : Handle Signal) (b : Bench) : Prop extends Attached d n c s b where
  idle : (b.context c).phase = .idle
  clear : (b.signal s).isPending = false
  armed : (b.nic n).gate.armed = true
  empty : (b.nic n).rx.toList = []

section OnePass

variable (h : Waiting d n c s b) (gs : List Frame)

include h

/-- What each pass does until its end, be it a full one or not. -/
theorem Waiting.collects : ∃ b₁ k, k = min (b.device d).weight (b.nic n).rx.toList.length ∧
    serve d gather (b, gs) = ((b₁.endPass c n k (b.device d).weight,
        gs ++ (b.nic n).rx.toList.take (b.device d).weight),
      some (.ok ⟨k, decide (k < (b.device d).weight)⟩)) ∧
    Attached d n c s b₁ ∧ (b₁.signal s).isPending = false ∧ (b₁.nic n).gate = (b.nic n).gate ∧
    (b₁.nic n).rx.toList = (b.nic n).rx.toList.drop (b.device d).weight ∧
    b₁.device d = (b.device d).plus
      (.ofReceived ((b.nic n).rx.toList.take (b.device d).weight)) := by
  have ha : Attached d n c s (b.passStart d c s) :=
    (((h.takeSignal s).record _).setPhase c .draining).record _
  obtain ⟨hk, hrx, hy⟩ := pump_counting_gather (b := b.passStart d c s) d h.drainable
    (b.device d).weight gs
  refine ⟨_, _, hk, (h.serve_eq rfl).trans ?_, hy.attached ha, ?_, ?_, hrx, hy.device⟩
  · rw [hy.stack]
    rfl
  · rw [signal, hy.signals, ← signal]
    exact (b.takeSignal_spec s).2.1
  · obtain ⟨rx, hcard⟩ := hy.card
    rw [hcard]
    rfl

/-- **A full pass** takes as many frames as it may and asks for the next pass.  For the
rest it leaves everything as that one needs it. -/
theorem Waiting.full (hw : (b.device d).weight ≤ (b.nic n).rx.toList.length) :
    ∃ b', serve d gather (b, gs) =
        ((b', gs ++ (b.nic n).rx.toList.take (b.device d).weight),
          some (.ok ⟨(b.device d).weight, false⟩)) ∧
      Waiting d n c s b' ∧ (b'.nic n).gate = (b.nic n).gate ∧
      (b'.nic n).rx.toList = (b.nic n).rx.toList.drop (b.device d).weight ∧
      b'.device d = (b.device d).plus
        (.ofReceived ((b.nic n).rx.toList.take (b.device d).weight)) := by
  obtain ⟨b₁, k, hk, hserve, ha, -, hgate, hrx, hdevice⟩ := h.collects gs
  obtain rfl := hk.trans (Nat.min_eq_left hw)
  rw [endPass_of_full (Nat.lt_irrefl _), decide_eq_false (Nat.lt_irrefl _)] at hserve
  refine ⟨_, hserve, ⟨?_, phase_request b₁ c, ?_, fun hd => ?_⟩, hgate, hrx, hdevice⟩
  · exact (ha.interrupted (interrupted_request n b₁ c)).record _
  · have hp := b₁.isPending_request c
    rwa [ha.request_eq] at hp
  · have hnil := h.drainable (by rw [← hgate]; exact hd)
    exact hrx.trans (by rw [hnil, List.drop_nil])

/-- **The last pass** takes what is there, and the device has caught up. -/
theorem Waiting.last (hw : (b.nic n).rx.toList.length < (b.device d).weight) :
    ∃ b', serve d gather (b, gs) = ((b', gs ++ (b.nic n).rx.toList),
        some (.ok ⟨(b.nic n).rx.toList.length, true⟩)) ∧
      CaughtUp d n c s b' ∧
      b'.device d = (b.device d).plus (.ofReceived (b.nic n).rx.toList) := by
  obtain ⟨b₁, k, hk, hserve, ha, hs, -, hrx, hdevice⟩ := h.collects gs
  obtain rfl := hk.trans (Nat.min_eq_right (Nat.le_of_lt hw))
  rw [List.take_of_length_le (Nat.le_of_lt hw)] at hserve hdevice
  have hnil : (b₁.nic n).rx.toList = [] := hrx.trans (List.drop_of_length_le (Nat.le_of_lt hw))
  rw [endPass_of_empty hw hnil, decide_eq_true hw] at hserve
  have hcard : ((b₁.setPhase c .idle).armLine n).nic n =
      { b₁.nic n with gate := (b₁.nic n).gate.arm } := nic_modifyNic_self ..
  refine ⟨_, hserve, ⟨?_, ?_, hs, ?_, ?_⟩, hdevice⟩
  · exact ((ha.setPhase c .idle).interrupted (interrupted_armLine _ n)).record _
  · exact congrArg PollContext.phase (context_setPhase b₁ c .idle)
  · exact congrArg (·.gate.armed) hcard
  · exact (congrArg (·.rx.toList) hcard).trans hnil

end OnePass

/-! ## The whole loop -/

/-- **What a loop does that catches up**, with a weight and with frames that wait. -/
structure CatchesUp (d : Handle Device) (n : Handle Nic) (c : Handle PollContext)
    (s : Handle Signal) (w : Nat) (fs gs : List Frame) (b : Bench)
    (l : List (Pass × Bench × List Frame)) (y : Bench × List Frame) : Prop where
  passes : l.length = fs.length / w + 1
  /-- Each pass but the last hands over as many frames as it may, asks for another one and
  does not touch the interrupt line. -/
  full : ∀ k, k < fs.length / w → ∃ b', l[k]? = some (⟨w, false⟩, b', gs ++ fs.take ((k + 1) * w)) ∧
    (b'.context c).phase = .scheduled ∧ (b'.signal s).isPending = true ∧
    (b'.nic n).gate = (b.nic n).gate
  /-- The last pass hands over the rest. -/
  last : ∃ b', l[fs.length / w]? = some (⟨fs.length % w, true⟩, b', gs ++ fs)
  stack : y.2 = gs ++ fs
  caughtUp : CaughtUp d n c s y.1
  device : y.1.device d = (b.device d).plus (.ofReceived fs)

/-- The loop that stops after its first pass. -/
theorem Waiting.loops_of_lt (h : Waiting d n c s b) (gs : List Frame)
    (hw : (b.nic n).rx.toList.length < (b.device d).weight) :
    ∃ l y, Loops d gather (b, gs) l y ∧
      CatchesUp d n c s (b.device d).weight (b.nic n).rx.toList gs b l y := by
  obtain ⟨b', hserve, hc, hdevice⟩ := h.last gs hw
  have hstop := serve_of_not_pending hc.toAttached hc.clear gather (gs ++ (b.nic n).rx.toList)
  refine ⟨_, _, .goesOn hserve (.stops hstop), ?_⟩
  have hdiv := Nat.div_eq_of_lt hw
  refine ⟨by rw [hdiv]; rfl, fun k hk => ?_, ⟨b', ?_⟩, rfl, ?_, hdevice⟩
  · rw [hdiv] at hk
    exact absurd hk (Nat.not_lt_zero k)
  · rw [hdiv, Nat.mod_eq_of_lt hw]
    rfl
  · exact ⟨hc.takeSignal s, hc.idle, (b'.takeSignal_spec s).2.1, hc.armed, hc.empty⟩

/-- A full pass before a loop that catches up. -/
theorem CatchesUp.cons {w : Nat} {l : List (Pass × Bench × List Frame)} {y : Bench × List Frame}
    (hw : 0 < w) (hle : w ≤ fs.length) (hb' : Waiting d n c s b')
    (hgate : (b'.nic n).gate = (b.nic n).gate)
    (hdevice : b'.device d = (b.device d).plus (.ofReceived (fs.take w)))
    (h : CatchesUp d n c s w (fs.drop w) (gs ++ fs.take w) b' l y) :
    CatchesUp d n c s w fs gs b ((⟨w, false⟩, b', gs ++ fs.take w) :: l) y := by
  have hdiv : fs.length / w = (fs.length - w) / w + 1 := Nat.div_eq_sub_div hw hle
  obtain ⟨hpasses, hfull, hlast, hstack, hcaught, hdev⟩ := h
  rw [List.length_drop] at hpasses hfull hlast
  rw [List.append_assoc, List.take_append_drop] at hlast hstack
  refine ⟨?_, fun k hk => ?_, ?_, hstack, hcaught, ?_⟩
  · rw [List.length_cons, hpasses, hdiv]
  · cases k with
    | zero =>
      rw [Nat.zero_add, Nat.one_mul]
      exact ⟨b', rfl, hb'.scheduled, hb'.pending, hgate⟩
    | succ k =>
      obtain ⟨b'', hk', hc, hs, hg⟩ := hfull k (by omega)
      refine ⟨b'', ?_, hc, hs, hg.trans hgate⟩
      rw [List.getElem?_cons_succ, hk', List.append_assoc, ← List.take_add,
        Nat.add_comm w, ← Nat.succ_mul]
  · obtain ⟨b'', hl⟩ := hlast
    exact ⟨b'', by rw [hdiv, List.getElem?_cons_succ, hl, Nat.mod_eq_sub_mod hle]⟩
  · rw [hdev, hdevice, Device.plus_plus, ← Counters.ofReceived_append, List.take_append_drop]

/-- The loop of a device that waits for its pass. -/
theorem Waiting.loops (h : Waiting d n c s b) (hw : 0 < (b.device d).weight)
    (gs : List Frame) : ∃ l y, Loops d gather (b, gs) l y ∧
      CatchesUp d n c s (b.device d).weight (b.nic n).rx.toList gs b l y := by
  -- The induction is on the number of full passes that are still to come.
  generalize hq : (b.nic n).rx.toList.length / (b.device d).weight = q
  induction q generalizing b gs with
  | zero => exact h.loops_of_lt gs ((Nat.div_eq_zero_iff_lt hw).mp hq)
  | succ q ih =>
    have hle : (b.device d).weight ≤ (b.nic n).rx.toList.length :=
      (Nat.div_pos_iff.mp (by rw [hq]; exact Nat.succ_pos q)).2
    obtain ⟨b', hserve, hb', hgate, hrx, hdevice⟩ := h.full gs hle
    have hweight : (b'.device d).weight = (b.device d).weight := by rw [hdevice]; rfl
    have hrest : (b'.nic n).rx.toList.length / (b'.device d).weight = q := by
      rw [hrx, hweight, List.length_drop]
      have := Nat.div_eq_sub_div hw hle
      omega
    obtain ⟨l, y, hl, hc⟩ := ih hb' (by rw [hweight]; exact hw) _ hrest
    rw [hrx, hweight] at hc
    exact ⟨_, y, .goesOn hserve hl, hc.cons hw hle hb' hgate hdevice⟩

/-- **The loop empties the ring**, and it takes one pass more than there are full ones.
Nothing else is an end of this loop. -/
theorem loops_until_empty (hr : Reachable n b) (ha : Attached d n c s b)
    (hw : 1 ≤ (b.device d).weight) (hc : (b.context c).phase = .scheduled)
    (hs : (b.signal s).isPending = true) (gs : List Frame) :
    ∃ l y, (∀ l' y', Loops d gather (b, gs) l' y' ↔ l' = l ∧ y' = y) ∧
      CatchesUp d n c s (b.device d).weight (b.nic n).rx.toList gs b l y := by
  have h : Waiting d n c s b := ⟨ha, hc, hs, (hr.sealed · .receive)⟩
  obtain ⟨l, y, hl, hcatch⟩ := h.loops hw gs
  refine ⟨l, y, fun l' y' => ⟨fun hl' => hl'.unique hl, ?_⟩, hcatch⟩
  rintro ⟨rfl, rfl⟩
  exact hl

/-- Four frames and a weight of two: the first two passes hand over two frames each, and
it takes a third one to see that there is no more. -/
theorem loops_until_empty_multiple :
    ∃ b, Reachable ⟨0⟩ b ∧ Attached ⟨0⟩ ⟨0⟩ ⟨0⟩ ⟨0⟩ b ∧ (b.device ⟨0⟩).weight = 2 ∧
      (b.context ⟨0⟩).phase = .scheduled ∧ (b.signal ⟨0⟩).isPending = true ∧
      (b.nic ⟨0⟩).rx.toList = [⟨[1]⟩, ⟨[2]⟩, ⟨[3]⟩, ⟨[4]⟩] ∧
      ∃ l y, Loops ⟨0⟩ gather (b, []) l y ∧ l.length = 3 ∧
        (∃ b', l[2]? = some (⟨0, true⟩, b', [⟨[1]⟩, ⟨[2]⟩, ⟨[3]⟩, ⟨[4]⟩])) ∧
        CaughtUp ⟨0⟩ ⟨0⟩ ⟨0⟩ ⟨0⟩ y.1 := by
  obtain ⟨x, hx⟩ : ∃ x, Nic.ofSizes 2 8 = .ok x := ⟨_, rfl⟩
  let b₁ : Bench := ((default : Bench).addNic x).2
  let b₂ := (b₁.addSignal (.flag false)).2
  let b₃ := (b₂.addDevice { Settings.standard with weight := 2 } ⟨0⟩ ⟨0⟩).2
  let b₄ := ((b₃.enableContext ⟨0⟩).installHandler ⟨0⟩ (passHandler ⟨0⟩)).bringUp ⟨0⟩
  let b₅ := [1, 2, 3, 4].foldl (fun b k => (b.deliver ⟨0⟩ ⟨[k]⟩).1) b₄
  have added : b₃.nic ⟨0⟩ = b₁.nic ⟨0⟩ := rfl
  have setUp : Reaches ⟨0⟩ (fun _ => True) b₁ b₄ :=
    ((((Reaches.refl _ _ b₁).elsewhere added).call (.enable ⟨0⟩) trivial).call
      (.installHandler ⟨0⟩ (passHandler ⟨0⟩)) trivial).call (.card ⟨0⟩ .bringUp) trivial
  have run : Reaches ⟨0⟩ (fun _ => True) b₁ b₅ :=
    (((setUp.call (.card ⟨0⟩ (.deliver ⟨[1]⟩)) trivial).call
      (.card ⟨0⟩ (.deliver ⟨[2]⟩)) trivial).call (.card ⟨0⟩ (.deliver ⟨[3]⟩)) trivial).call
        (.card ⟨0⟩ (.deliver ⟨[4]⟩)) trivial
  have hr : Reachable ⟨0⟩ b₅ := ⟨2, 8, x, default, b₁, hx, rfl, run⟩
  obtain rfl := Except.ok.inj hx
  have ha : Attached ⟨0⟩ ⟨0⟩ ⟨0⟩ ⟨0⟩ b₅ :=
    ⟨by decide +kernel, by decide +kernel, by decide +kernel⟩
  have hw : (b₅.device ⟨0⟩).weight = 2 := by decide +kernel
  have hc : (b₅.context ⟨0⟩).phase = .scheduled := by decide +kernel
  have hs : (b₅.signal ⟨0⟩).isPending = true := by decide +kernel
  have hrx : (b₅.nic ⟨0⟩).rx.toList = [⟨[1]⟩, ⟨[2]⟩, ⟨[3]⟩, ⟨[4]⟩] := by decide +kernel
  obtain ⟨l, y, hl, hcatch⟩ := loops_until_empty hr ha (by rw [hw]; decide) hc hs []
  rw [hw, hrx] at hcatch
  exact ⟨b₅, hr, ha, hw, hc, hs, hrx, l, y, (hl l y).mpr ⟨rfl, rfl⟩, hcatch.passes,
    hcatch.last, hcatch.caughtUp⟩

end Bench
end SoftNic
