import SoftNic.Proofs.Ownership

/-! # Endpoints in a run loop

An endpoint moves frames from the receive ring of its card to the end of its
backlog, and hands them out from the front.  A turn of the loop does so in a pass,
if one was asked for and the context waits for it (`turnEndpoint_cases`).  Whatever
else a turn does, it takes frames out of the ring in order, and appends exactly
these to the backlog (`Carried`).
-/
namespace SoftNic

/-- What can be told of a way that frames take from the answers at its two ends: the
frames that were accepted at one, and those that were handed out at the other, oldest
first. -/
structure Receipts where
  accepted : List Frame := []
  returned : List Frame := []
  deriving DecidableEq

namespace Receipts

/-- A frame is offered at one end, and is accepted or not. -/
def enter {ε : Type} (l : Receipts) (answer : Except ε Unit) (f : Frame) : Receipts :=
  match answer with
  | .ok () => { l with accepted := l.accepted ++ [f] }
  | .error _ => l

/-- A frame is asked for at the other end, and there is one or not. -/
def handOut (l : Receipts) (answer : Except Fault (Option Frame)) : Receipts :=
  match answer with
  | .ok o => { l with returned := l.returned ++ o.toList }
  | .error _ => l

end Receipts

namespace Bench

variable {e : Handle Endpoint} {d : Handle Device} {n : Handle Nic}
  {c : Handle PollContext} {s t : Handle Signal} {b b' b'' : Bench} {fs gs : List Frame}

/-! ## From the ring to the backlog -/

/-- Frames were carried from the receive ring of a card to the backlog of an
endpoint.  The rest of the bench is as it was, up to signals, the phases of
contexts, the counters of devices, and the interrupt line of the card. -/
structure Carried (e : Handle Endpoint) (n : Handle Nic) (fs : List Frame) (b b' : Bench) :
    Prop where
  ties : ∀ t, SameTies t b b'
  peers : b'.peers = b.peers
  nic : ∀ m, m ≠ n → b'.nic m = b.nic m
  card : ∃ armed rx, b'.nic n = { b.nic n with gate := { (b.nic n).gate with armed }, rx } ∧
    (b.nic n).rx.toList = fs ++ rx.toList
  backlog : (b'.endpoint e).backlog = (b.endpoint e).backlog ++ fs
  endpoint : ∀ x, x ≠ e → b'.endpoint x = b.endpoint x

namespace Carried

theorem trans (h : Carried e n fs b b') (g : Carried e n gs b' b'') :
    Carried e n (fs ++ gs) b b'' where
  ties t := (h.ties t).trans (g.ties t)
  peers := g.peers.trans h.peers
  nic m hm := (g.nic m hm).trans (h.nic m hm)
  card := by
    obtain ⟨a, r, hn, hr⟩ := h.card
    obtain ⟨a', r', hn', hr'⟩ := g.card
    refine ⟨a', r', by rw [hn', hn], ?_⟩
    rw [hn] at hr'
    exact hr.trans ((congrArg (fs ++ ·) hr').trans (List.append_assoc ..).symm)
  backlog := by rw [g.backlog, h.backlog, List.append_assoc]
  endpoint x hx := (g.endpoint x hx).trans (h.endpoint x hx)

/-- An interrupt moves no frame. -/
theorem of_interrupted (hi : Interrupted n b b') (ht : ∀ t, SameTies t b b') :
    Carried e n [] b b' where
  ties := ht
  peers := hi.peers
  nic := hi.nic
  card := by
    obtain ⟨a, ha⟩ := hi.card
    exact ⟨a, (b.nic n).rx, ha, rfl⟩
  backlog := by rw [Bench.endpoint, hi.endpoints, ← Bench.endpoint, List.append_nil]
  endpoint _ _ := by rw [Bench.endpoint, hi.endpoints, Bench.endpoint]

theorem of_stores (hn : b'.nics = b.nics) (hp : b'.peers = b.peers)
    (he : b'.endpoints = b.endpoints) (ht : ∀ t, SameTies t b b') : Carried e n [] b b' where
  ties := ht
  peers := hp
  nic _ _ := by rw [Bench.nic, hn, Bench.nic]
  card := ⟨(b.nic n).gate.armed, (b.nic n).rx, by rw [Bench.nic, hn, Bench.nic], rfl⟩
  backlog := by rw [Bench.endpoint, he, ← Bench.endpoint, List.append_nil]
  endpoint _ _ := by rw [Bench.endpoint, he, Bench.endpoint]

/-- Carrying no frame adds nothing to what was carried. -/
theorem trans_nil (h : Carried e n fs b b') (g : Carried e n [] b' b'') : Carried e n fs b b'' :=
  List.append_nil fs ▸ h.trans g

theorem phase_eq (h : Carried e n fs b b') : (b'.nic n).gate.phase = (b.nic n).gate.phase := by
  obtain ⟨a, r, hn, -⟩ := h.card
  rw [hn]

/-- All frames that were in the ring or the backlog are still in one of them. -/
theorem backlog_append_ring (h : Carried e n fs b b') :
    (b'.endpoint e).backlog ++ (b'.nic n).rx.toList =
      (b.endpoint e).backlog ++ (b.nic n).rx.toList := by
  obtain ⟨a, r, hn, hr⟩ := h.card
  rw [h.backlog, hn, hr, List.append_assoc]

end Carried

/-- What the sink of a pass does with one frame that was taken. -/
theorem carried_one {f : Frame} (ht : (b.take n .receive).2 = some f) :
    Carried e n [f] b (counting d (enqueueBacklog e) f ((b.take n .receive).1, ())).1 := by
  have ho := onlyCard_take b n .receive
  have hb : Carried e n [] (b.take n .receive).1
      (((b.take n .receive).1.recordDevice d (.frameSeen Direction.receive.word f)).countDevice d
        (·.received f.length)) :=
    .of_stores rfl rfl rfl fun t => (sameTies_record _ _).trans (sameTies_countDevice _ d _)
  refine ⟨fun t => ?_, ?_, fun m hm => ?_, ?_, ?_, fun x hx => ?_⟩
  · exact (sameTies_take b n .receive).trans
      ((hb.ties t).trans (sameTies_setBacklog _ e (· ++ [f])))
  · exact hb.peers.trans ho.peers
  · exact (hb.nic m hm).trans (ho.nic m hm)
  · obtain ⟨r, hn, hr⟩ := take_of_some ht
    exact ⟨(b.nic n).gate.armed, r, hn, hr⟩
  · have he : (b.take n .receive).1.endpoint e = b.endpoint e := by
      rw [endpoint, ho.endpoints, ← endpoint]
    rw [← he]
    exact congrArg Endpoint.backlog (Store.get_modify_self _ e _)
  · have he : (b.take n .receive).1.endpoint x = b.endpoint x := by
      rw [endpoint, ho.endpoints, ← endpoint]
    exact (Store.get_modify_of_ne _ hx _).trans he

/-- **The transfer of a pass.**  It carries as many frames as it says, raises no
signal and moves no context.  If it stays below its budget, it has left nothing in
a ring that gives its frames. -/
theorem pump_backlog (budget : Nat) (b : Bench) : ∃ fs b',
    pump (·.take n .receive) (counting d (enqueueBacklog e)) budget (b, ()) =
      ((b', ()), fs.length) ∧
    Carried e n fs b b' ∧ b'.contexts = b.contexts ∧ b'.signals = b.signals ∧
    (fs.length < budget → (b.nic n).gate.phase.canDrain = true → (b'.nic n).rx.toList = []) := by
  induction budget generalizing b with
  | zero =>
    exact ⟨[], b, rfl, .of_stores rfl rfl rfl fun t => .refl b, rfl, rfl,
      fun h => absurd h (Nat.not_lt_zero _)⟩
  | succ budget ih =>
    rcases b.take_cases n .receive with ⟨hnil, hno⟩ | ⟨-, f, -, -, hf, -⟩
    · refine ⟨[], b, ?_, .of_stores rfl rfl rfl fun t => .refl b, rfl, rfl, fun _ hd => hnil hd⟩
      rw [pump, hno]
      rfl
    · have h₁ := carried_one (e := e) (d := d) hf
      have ho := onlyCard_take b n .receive
      obtain ⟨fs, b', hp, h₂, hc, hs, hshort⟩ :=
        ih (counting d (enqueueBacklog e) f ((b.take n .receive).1, ())).1
      refine ⟨f :: fs, b', ?_, h₁.trans h₂, hc.trans ho.contexts, hs.trans ho.signals,
        fun hk hd => hshort (Nat.lt_of_succ_lt_succ hk) ?_⟩
      · have ht : b.take n .receive = ((b.take n .receive).1, some f) := Prod.ext rfl hf
        rw [pump, ht]
        dsimp only
        rw [hp]
        rfl
      · rw [h₁.phase_eq]
        exact hd

/-! ## Turns -/

/-- The bench on which the transfer of a pass begins. -/
def passStart (b : Bench) (d : Handle Device) (c : Handle PollContext) (s : Handle Signal) :
    Bench :=
  ((b.takeSignal s).1.recordDevice d .polled).startPass c

theorem carried_passStart (b : Bench) : Carried e n [] b (b.passStart d c s) :=
  .of_stores rfl rfl rfl fun _ => (((sameTies_takeSignal b s).trans (sameTies_record _ _)).trans
    (sameTies_setPhase _ c _)).trans (sameTies_record _ _)

theorem carried_endPass (b : Bench) (handled budget : Nat) :
    Carried e n [] b (b.endPass c n handled budget) := by
  refine .of_interrupted (interrupted_endPass b c n handled budget) fun t => ?_
  unfold endPass
  dsimp only
  split
  · exact ((sameTies_setPhase b c .idle).trans (sameTies_rearm _ n)).trans (sameTies_record _ _)
  · exact (sameTies_request b c).trans (sameTies_record _ _)

section Turns

variable (h : Attached d n c t b) (hd : (b.endpoint e).device = d)
  (hs : (b.endpoint e).request = s)

include hs in
theorem turnEndpoint_of_clear (hno : (b.signal s).isPending = false) :
    b.turnEndpoint e = ((b.takeSignal s).1, .ok ()) := by
  have ht : ¬ (b.takeSignal s).2 = true := by
    rw [(b.takeSignal_spec s).1, hno]
    decide
  unfold turnEndpoint
  rw [hs]
  dsimp only
  rw [if_neg ht]

include hd hs in
theorem turnEndpoint_of_pending (hp : (b.signal s).isPending = true) :
    b.turnEndpoint e =
      ((pollDevice d (enqueueBacklog e) ((b.takeSignal s).1, ())).1.1,
        (pollDevice d (enqueueBacklog e) ((b.takeSignal s).1, ())).2.map fun _ => ()) := by
  have ht : (b.takeSignal s).2 = true := by rw [(b.takeSignal_spec s).1, hp]
  have hd' : ((b.takeSignal s).1.endpoint e).device = d := hd
  unfold turnEndpoint
  rw [hs]
  dsimp only
  rw [hd', if_pos ht]
  generalize pollDevice d (enqueueBacklog e) ((b.takeSignal s).1, ()) = r
  obtain ⟨⟨b', ⟨⟩⟩, pass⟩ := r
  cases pass <;> rfl

include h hd hs

/-- What a turn comes to: there was no request; or the context waited for its
pass, and the pass ran; or it did not, and the turn is a fault unless the context is
disabled. -/
theorem turnEndpoint_cases :
    ((b.signal s).isPending = false ∧ b.turnEndpoint e = ((b.takeSignal s).1, .ok ())) ∨
    ((b.signal s).isPending = true ∧ (b.context c).phase = .scheduled ∧ ∃ fs b',
      b.turnEndpoint e = (b'.endPass c n fs.length (b.device d).weight, .ok ()) ∧
      Carried e n fs (b.passStart d c s) b' ∧ b'.contexts = (b.passStart d c s).contexts ∧
      b'.signals = (b.passStart d c s).signals ∧ fs.length ≤ (b.device d).weight ∧
      (fs.length < (b.device d).weight → (b.nic n).gate.phase.canDrain = true →
        (b'.nic n).rx.toList = [])) ∨
    ((b.signal s).isPending = true ∧ (b.context c).phase ≠ .scheduled ∧ ∃ x answer,
      b.turnEndpoint e = (((b.takeSignal s).1.recordDevice d .polled).record x, answer) ∧
      ((b.context c).phase = .disabled → answer = .ok ())) := by
  by_cases hp : (b.signal s).isPending = true
  · rw [turnEndpoint_of_pending hd hs hp]
    refine Or.inr ?_
    rcases pollDevice_cases (h.takeSignal s) (enqueueBacklog e) () with
      ⟨hq, y, k, hy, hr⟩ | ⟨hq, x, hr⟩ | ⟨hq, x, hr⟩
    · refine Or.inl ⟨hp, hq, ?_⟩
      obtain ⟨fs, b', hb, hc, hcs, hss, hshort⟩ :=
        pump_backlog (e := e) (d := d) (n := n) (b.device d).weight (b.passStart d c s)
      obtain ⟨rfl, rfl⟩ := Prod.mk.inj (hy.symm.trans hb)
      have hle := pump_le (·.take n .receive) (counting d (enqueueBacklog e)) (b.device d).weight
        (b.passStart d c s, ())
      rw [hb] at hle
      refine ⟨fs, b', ?_, hc, hcs, hss, hle, hshort⟩
      rw [hr]
      rfl
    · have hq' : (b.context c).phase = .disabled := hq
      refine Or.inr ⟨hp, by rw [hq']; decide, x, .ok (), ?_, fun _ => rfl⟩
      rw [hr]
      rfl
    · have hq' : (b.context c).phase ≠ .scheduled ∧ (b.context c).phase ≠ .disabled := by
        rcases hq with hq | hq
        · rw [show (b.context c).phase = .idle from hq]
          decide
        · rw [show (b.context c).phase = .draining from hq]
          decide
      refine Or.inr ⟨hp, hq'.1, x, .error (.pollUnrequested (b.context c).phase), ?_,
        fun hx => absurd hx hq'.2⟩
      rw [hr]
      rfl
  · exact Or.inl ⟨by simpa using hp, turnEndpoint_of_clear hs (by simpa using hp)⟩

/-- A turn only carries frames. -/
theorem carried_turnEndpoint : ∃ fs, Carried e n fs b (b.turnEndpoint e).1 := by
  rcases turnEndpoint_cases h hd hs with
    ⟨-, ht⟩ | ⟨-, -, fs, b', ht, hc, -⟩ | ⟨-, -, x, answer, ht, -⟩
  · rw [ht]
    exact ⟨[], .of_stores rfl rfl rfl fun _ => sameTies_takeSignal b s⟩
  · rw [ht]
    exact ⟨[] ++ fs, ((carried_passStart b).trans hc).trans_nil (carried_endPass b' _ _)⟩
  · rw [ht]
    exact ⟨[], .of_stores rfl rfl rfl fun _ =>
      ((sameTies_takeSignal b s).trans (sameTies_record _ _)).trans (sameTies_record _ x)⟩

end Turns

/-! ## Receiving -/

/-- The oldest frame of the backlog is handed out, if there is one. -/
theorem popBacklog_eq (b : Bench) (e : Handle Endpoint) :
    ((b.popBacklog e).1 = b ∨ ∃ rest, (b.popBacklog e).1 =
        b.modifyEndpoint e fun x => { x with backlog := rest }) ∧
      (b.popBacklog e).2.toList ++ ((b.popBacklog e).1.endpoint e).backlog =
        (b.endpoint e).backlog := by
  unfold popBacklog
  split
  · exact ⟨Or.inl rfl, rfl⟩
  · next f rest h =>
    refine ⟨Or.inr ⟨rest, rfl⟩, ?_⟩
    rw [h]
    refine congrArg (f :: ·) ?_
    exact congrArg Endpoint.backlog (Store.get_modify_self _ e _)

theorem popBacklog_eq_none_iff : (b.popBacklog e).2 = none ↔ (b.endpoint e).backlog = [] := by
  unfold popBacklog
  split
  · next h => exact ⟨fun _ => h, fun _ => rfl⟩
  · next f rest h => exact ⟨nofun, fun hn => nomatch h.symm.trans hn⟩

/-- Asking for a frame takes a turn if there is none in the backlog, and then the
oldest of the backlog. -/
theorem receiveEndpoint_eq (b : Bench) (e : Handle Endpoint) :
    b.receiveEndpoint e =
      if (b.endpoint e).backlog = [] then
        match b.turnEndpoint e with
        | (b, .error f) => (b, .error f)
        | (b, .ok ()) => ((b.popBacklog e).1, .ok (b.popBacklog e).2)
      else ((b.popBacklog e).1, .ok (b.popBacklog e).2) := by
  unfold receiveEndpoint
  by_cases h : (b.endpoint e).backlog = []
  · rw [if_pos h, if_pos (by rw [h]; rfl)]
    cases b.turnEndpoint e with
    | mk b' turn => cases turn <;> rfl
  · rw [if_neg h, if_neg (by simpa using h)]

end Bench
end SoftNic
