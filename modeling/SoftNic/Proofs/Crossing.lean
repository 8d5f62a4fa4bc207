import SoftNic.Proofs.Drainable
import SoftNic.Proofs.Increments
import SoftNic.Proofs.Interrupts

/-! # Frames that cross

A peer that polls its card, with a wire on which another peer sends every frame on, moves
frames from the transmit ring of one card to the receive ring of another; or of the same
one, and the two peers may be the same as well.  Each frame is taken, counted, offered,
and counted again, and the next is taken only then: the receive ring may get full on the
way, and a handler that masks its card hears of the first frame that arrives and of no
other.

A passage says what all of this comes to (`Passage`): which frames left, which arrived, and
what was counted by whom.  `Moved` says that a passage is all that happened to cards and
peers, whatever it consists of; so each single thing is told once, and the whole is put
together (`Moved.trans`).  What a handler does is told apart (`Heard`).
-/
namespace SoftNic

/-- What comes of frames that cross from one card to another. -/
structure Passage where
  /-- The frames that left the transmit ring. -/
  left : List Frame := []
  /-- The frames that got into the receive ring. -/
  arrived : List Frame := []
  /-- What the receiving card counted. -/
  card : Counters := .zero
  /-- What the peer counted that collects the frames. -/
  collector : Counters := .zero
  /-- What the peer counted that sends them on. -/
  feeder : Counters := .zero

namespace Passage

/-- One passage, and then another. -/
def followedBy (g h : Passage) : Passage where
  left := g.left ++ h.left
  arrived := g.arrived ++ h.arrived
  card := g.card.plus h.card
  collector := g.collector.plus h.collector
  feeder := g.feeder.plus h.feeder

/-- A frame crosses, and the card takes it. -/
def arriving (f : Frame) : Passage where
  left := [f]
  arrived := [f]
  card := .ofReceived [f]
  collector := .ofReceived [f]
  feeder := .ofSent [f]

/-- A frame crosses, and the card refuses it. -/
def lost (f : Frame) : Passage where
  left := [f]
  card := .ofReceiveDropped 1
  collector := .ofReceived [f]
  feeder := .ofSendDropped 1

/-- Frames cross to a card that has room for some of them. -/
def ofFrames (room : Nat) (fs : List Frame) : Passage where
  left := fs
  arrived := fs.take room
  card := (Counters.ofReceived (fs.take room)).plus (.ofReceiveDropped (fs.length - room))
  collector := .ofReceived fs
  feeder := (Counters.ofSent (fs.take room)).plus (.ofSendDropped (fs.length - room))

@[simp] theorem followedBy_nil (g : Passage) : g.followedBy {} = g := by
  simp only [followedBy, List.append_nil, Counters.plus_zero]

/-- Of the frames that wait, some leave and some of those arrive. -/
def ofPoll (waiting : List Frame) (leaving arriving failed : Nat) : Passage where
  left := waiting.take leaving
  arrived := waiting.take arriving
  card := (Counters.ofReceived (waiting.take arriving)).plus
    (.ofReceiveDropped (leaving - arriving))
  collector := (Counters.ofReceived (waiting.take leaving)).plus (.ofReceiveFailed failed)
  feeder := (Counters.ofSent (waiting.take arriving)).plus (.ofSendDropped (leaving - arriving))

theorem ofFrames_take {waiting : List Frame} {leaving : Nat} (h : leaving ≤ waiting.length)
    (room : Nat) : ofFrames room (waiting.take leaving) =
      ofPoll waiting leaving (min leaving room) 0 := by
  have hlost : leaving - room = leaving - min leaving room := by omega
  simp only [ofFrames, ofPoll, List.take_take, List.length_take_of_le h, hlost,
    Nat.min_comm room leaving, Counters.ofReceiveFailed_zero, Counters.plus_zero]

/-- A look that finds nothing is counted, too. -/
theorem ofPoll_failed (waiting : List Frame) (leaving arriving : Nat) :
    (ofPoll waiting leaving arriving 0).followedBy { collector := .ofReceiveFailed 1 } =
      ofPoll waiting leaving arriving 1 := by
  simp only [ofPoll, followedBy, List.append_nil, Counters.ofReceiveFailed_zero,
    Counters.plus_zero]

theorem ofFrames_nil (room : Nat) : ofFrames room [] = {} := by
  simp [ofFrames]

/-- The next frame arrives while there is room, and after that it is lost. -/
theorem ofFrames_snoc (room : Nat) (fs : List Frame) (f : Frame) : ofFrames room (fs ++ [f]) =
    (ofFrames room fs).followedBy (if fs.length < room then arriving f else lost f) := by
  have hlen : (fs ++ [f]).length = fs.length + 1 := by
    rw [List.length_append, List.length_singleton]
  split
  · next hroom =>
    have hold : fs.take room = fs := List.take_of_length_le (Nat.le_of_lt hroom)
    have hnew : (fs ++ [f]).take room = fs ++ [f] := List.take_of_length_le (by omega)
    have hnone : fs.length - room = 0 ∧ (fs ++ [f]).length - room = 0 := by omega
    simp only [ofFrames, followedBy, arriving, hold, hnew, hnone, Counters.ofReceived_append,
      Counters.ofSent_append, Counters.ofReceiveDropped_zero, Counters.ofSendDropped_zero,
      Counters.plus_zero]
  · next hfull =>
    have hle : room ≤ fs.length := Nat.le_of_not_lt hfull
    have hmore : (fs ++ [f]).length - room = fs.length - room + 1 := by omega
    simp only [ofFrames, followedBy, lost, List.take_append_of_le_length hle, hmore,
      Counters.ofReceived_append, Counters.ofReceiveDropped_add, Counters.ofSendDropped_add,
      Counters.plus_assoc, List.append_nil]

end Passage

/-- How many frames a card takes from the wire: none unless it is ready, and one slot of
the ring always stays vacant. -/
def Nic.room (x : Nic) : Nat :=
  if x.gate.isReady then x.rx.capacity - 1 - x.rx.toList.length else 0

theorem Nic.admits_iff_room (x : Nic) : x.Admits .receive ↔ 0 < x.room := by
  unfold Admits room
  split
  · next hr =>
    rw [and_iff_right hr, Nat.sub_pos_iff_lt]
    rfl
  · next hr => exact iff_of_false (fun h => hr h.1) (Nat.lt_irrefl 0)

namespace Bench

variable {p q : Handle Peer} {n r m : Handle Nic} {g h : Passage} {b b' b'' : Bench} {f : Frame}
  {ran : Option (List HandlerAction)}

/-! ## What happens to cards and peers -/

/-- **A passage is all that happened**, up to the interrupt line of the receiving card, to
contexts and to signals. -/
structure Moved (p q : Handle Peer) (n r : Handle Nic) (g : Passage) (b b' : Bench) : Prop where
  tx : (b.nic n).tx.toList = g.left ++ (b'.nic n).tx.toList
  rx : (b'.nic r).rx.toList = (b.nic r).rx.toList ++ g.arrived
  otherTx : ∀ m, m ≠ n → (b'.nic m).tx = (b.nic m).tx
  otherRx : ∀ m, m ≠ r → (b'.nic m).rx = (b.nic m).rx
  capacity : ∀ m i, ((b'.nic m).ring i).capacity = ((b.nic m).ring i).capacity
  counters : ∀ m, (b'.nic m).counters =
    (b.nic m).counters.plus (if m = r then g.card else .zero)
  phase : ∀ m, (b'.nic m).gate.phase = (b.nic m).gate.phase
  armed : ∀ m, m ≠ r → (b'.nic m).gate.armed = (b.nic m).gate.armed
  handler : ∀ m, (b'.nic m).handler = (b.nic m).handler
  hook : ∀ m, (b'.nic m).hook = (b.nic m).hook
  peers : ∀ x, b'.peer x = (b.peer x).plus
    ((if x = p then g.collector else .zero).plus (if x = q then g.feeder else .zero))
  devices : b'.devices = b.devices
  endpoints : b'.endpoints = b.endpoints

namespace Moved

theorem trans (hg : Moved p q n r g b b') (hh : Moved p q n r h b' b'') :
    Moved p q n r (g.followedBy h) b b'' where
  tx := by rw [hg.tx, hh.tx, ← List.append_assoc]; rfl
  rx := by rw [hh.rx, hg.rx, List.append_assoc]; rfl
  otherTx m hm := (hh.otherTx m hm).trans (hg.otherTx m hm)
  otherRx m hm := (hh.otherRx m hm).trans (hg.otherRx m hm)
  capacity m i := (hh.capacity m i).trans (hg.capacity m i)
  counters m := by
    rw [hh.counters, hg.counters, Counters.plus_assoc]
    split
    · rfl
    · rw [Counters.plus_zero]
  phase m := (hh.phase m).trans (hg.phase m)
  armed m hm := (hh.armed m hm).trans (hg.armed m hm)
  handler m := (hh.handler m).trans (hg.handler m)
  hook m := (hh.hook m).trans (hg.hook m)
  peers x := by
    rw [hh.peers, hg.peers, Peer.plus_plus, Counters.plus_plus_plus_comm]
    congr 2
    · split
      · rfl
      · rw [Counters.plus_zero]
    · split
      · rfl
      · rw [Counters.plus_zero]
  devices := hh.devices.trans hg.devices
  endpoints := hh.endpoints.trans hg.endpoints

/-- Each card is as it was, up to what a passage may change of it. -/
theorem of_cards (tx rx : Ring Frame) (armed : Bool)
    (hcard : ∀ m, b'.nic m = { b.nic m with
      tx := if m = n then tx else (b.nic m).tx
      rx := if m = r then rx else (b.nic m).rx
      gate := { (b.nic m).gate with armed := if m = r then armed else (b.nic m).gate.armed }
      counters := (b.nic m).counters.plus (if m = r then g.card else .zero) })
    (htx : (b.nic n).tx.toList = g.left ++ tx.toList ∧ tx.capacity = (b.nic n).tx.capacity)
    (hrx : rx.toList = (b.nic r).rx.toList ++ g.arrived ∧ rx.capacity = (b.nic r).rx.capacity)
    (hpeers : ∀ x, b'.peer x = (b.peer x).plus
      ((if x = p then g.collector else .zero).plus (if x = q then g.feeder else .zero)))
    (hdevices : b'.devices = b.devices) (hendpoints : b'.endpoints = b.endpoints) :
    Moved p q n r g b b' where
  tx := by rw [hcard]; exact htx.1.trans (by rw [if_pos rfl])
  rx := by rw [hcard, ← hrx.1]; exact congrArg Ring.toList (if_pos rfl)
  otherTx m hm := by rw [hcard]; exact if_neg hm
  otherRx m hm := by rw [hcard]; exact if_neg hm
  capacity m i := by
    rw [hcard]
    cases i with
    | transmit =>
      show (if m = n then tx else (b.nic m).tx).capacity = (b.nic m).tx.capacity
      split
      · next hm => rw [hm, htx.2]
      · rfl
    | receive =>
      show (if m = r then rx else (b.nic m).rx).capacity = (b.nic m).rx.capacity
      split
      · next hm => rw [hm, hrx.2]
      · rfl
  counters m := by rw [hcard]
  phase m := by rw [hcard]
  armed m hm := by rw [hcard]; exact if_neg hm
  handler m := by rw [hcard]
  hook m := by rw [hcard]
  peers := hpeers
  devices := hdevices
  endpoints := hendpoints

/-- What is put in the place of itself. -/
theorem same_of_ite {α : Type} (v : Handle Nic → α) (x m : Handle Nic) :
    (if m = x then v x else v m) = v m := by
  split
  · next hm => rw [hm]
  · rfl

/-- Nobody has counted anything. -/
theorem peers_of_eq (h : b'.peers = b.peers) (x : Handle Peer) : b'.peer x = (b.peer x).plus
    ((if x = p then Counters.zero else .zero).plus (if x = q then .zero else .zero)) := by
  rw [ite_self, ite_self, Counters.plus_zero, Peer.plus_zero, peer, h, ← peer]

/-- Only the interrupt line of the receiving card may have changed. -/
theorem of_interrupted (hi : Interrupted r b b') : Moved p q n r {} b b' := by
  obtain ⟨armed, hr⟩ := hi.card
  refine of_cards (b.nic n).tx (b.nic r).rx armed (fun m => ?_)
    ⟨rfl, rfl⟩ ⟨(List.append_nil _).symm, rfl⟩ (peers_of_eq hi.peers) hi.devices hi.endpoints
  rw [same_of_ite fun m => (b.nic m).tx, same_of_ite fun m => (b.nic m).rx, ite_self,
    Counters.plus_zero]
  by_cases hm : m = r
  · rw [hm, hr, if_pos rfl]
  · rw [hi.nic m hm, if_neg hm]

theorem record (h : Moved p q n r g b b') (e : Event) : Moved p q n r g b (b'.record e) := by
  have hr := h.trans (of_interrupted (interrupted_record r b' e))
  rwa [Passage.followedBy_nil] at hr

/-- The oldest frame leaves the transmit ring. -/
theorem take (p q : Handle Peer) (r : Handle Nic) (ht : (b.take n .transmit).2 = some f) :
    Moved p q n r { left := [f] } b (b.take n .transmit).1 := by
  have ho := onlyCard_take b n .transmit
  rcases b.take_cases n .transmit with ⟨-, hno⟩ | ⟨-, f', tx, hdeq, hf, hn⟩
  · rw [hno] at ht
    cases ht
  obtain rfl := Option.some.inj (hf.symm.trans ht)
  refine of_cards tx (b.nic r).rx (b.nic r).gate.armed (fun m => ?_)
    ⟨Ring.toList_of_dequeue? hdeq, Ring.capacity_of_dequeue? hdeq⟩
    ⟨(List.append_nil _).symm, rfl⟩ (peers_of_eq ho.peers) ho.devices ho.endpoints
  rw [same_of_ite fun m => (b.nic m).rx, same_of_ite fun m => (b.nic m).gate.armed, ite_self,
    Counters.plus_zero]
  by_cases hm : m = n
  · rw [hm, hn, if_pos rfl]
    rfl
  · rw [ho.nic m hm, if_neg hm]

/-- The receiving card is offered a frame, and takes it or refuses it. -/
theorem accept (p q : Handle Peer) (n : Handle Nic) (b : Bench) (r : Handle Nic) (f : Frame) :
    Moved p q n r (if 0 < (b.nic r).room then
        { arrived := [f], card := .ofReceived [f] } else { card := .ofReceiveDropped 1 })
      b (b.accept r .receive f).1 := by
  have ho := onlyCard_accept b r .receive f
  split
  · next hroom =>
    have hok := (b.accept_ok_iff r .receive f).mpr ((Nic.admits_iff_room _).mpr hroom)
    rcases b.accept_cases r .receive f with ⟨-, he, -⟩ | ⟨-, -, he, -⟩ | ⟨-, -, rx, hq, hr⟩
    · cases hok.symm.trans he
    · cases hok.symm.trans he
    refine of_cards (b.nic n).tx rx (b.nic r).gate.armed (fun m => ?_)
      ⟨rfl, rfl⟩ ⟨Ring.toList_of_enqueue? hq, Ring.capacity_of_enqueue? hq⟩
      (peers_of_eq ho.peers) ho.devices ho.endpoints
    rw [same_of_ite fun m => (b.nic m).tx, same_of_ite fun m => (b.nic m).gate.armed]
    by_cases hm : m = r
    · rw [hm, hr, if_pos rfl, if_pos rfl, ← Counters.received_eq_plus]
      rfl
    · rw [ho.nic m hm, if_neg hm, if_neg hm, Counters.plus_zero]
  · next hfull =>
    have hno : ¬ (b.nic r).Admits .receive := fun h => hfull ((Nic.admits_iff_room _).mp h)
    have hr := (accept_of_not_admits hno f).2.card
    refine of_cards (b.nic n).tx (b.nic r).rx (b.nic r).gate.armed
      (fun m => ?_) ⟨rfl, rfl⟩ ⟨(List.append_nil _).symm, rfl⟩ (peers_of_eq ho.peers) ho.devices
      ho.endpoints
    rw [same_of_ite fun m => (b.nic m).tx, same_of_ite fun m => (b.nic m).rx,
      same_of_ite fun m => (b.nic m).gate.armed]
    by_cases hm : m = r
    · rw [hm, hr, if_pos rfl, ← Counters.receiveDropped_eq_plus]
      rfl
    · rw [ho.nic m hm, if_neg hm, Counters.plus_zero]

/-- Only peers have counted something. -/
theorem of_nics {c d : Counters} (hn : b'.nics = b.nics)
    (hpeers : ∀ x, b'.peer x = (b.peer x).plus
      ((if x = p then c else .zero).plus (if x = q then d else .zero)))
    (hdevices : b'.devices = b.devices) (hendpoints : b'.endpoints = b.endpoints) :
    Moved p q n r { collector := c, feeder := d } b b' := by
  refine of_cards (b.nic n).tx (b.nic r).rx (b.nic r).gate.armed
    (fun m => ?_) ⟨rfl, rfl⟩ ⟨(List.append_nil _).symm, rfl⟩ hpeers hdevices hendpoints
  rw [same_of_ite fun m => (b.nic m).tx, same_of_ite fun m => (b.nic m).rx,
    same_of_ite fun m => (b.nic m).gate.armed, ite_self, Counters.plus_zero, nic, hn, ← nic]

theorem peer_countPeer_plus (b : Bench) (p x : Handle Peer) (c : Counters) :
    (b.countPeer p (·.plus c)).peer x = (b.peer x).plus (if x = p then c else .zero) := by
  by_cases hx : x = p
  · rw [hx, peer_countPeer_self, if_pos rfl]
    rfl
  · rw [peer_countPeer_of_ne hx, if_neg hx, Peer.plus_zero]

/-- The peer that collects counts something. -/
theorem countCollector (p q : Handle Peer) (n r : Handle Nic) (b : Bench) (c : Counters) :
    Moved p q n r { collector := c } b (b.countPeer p (·.plus c)) := by
  refine of_nics rfl (fun x => ?_) rfl rfl
  rw [ite_self, Counters.plus_zero, peer_countPeer_plus]

/-- The peer that sends on counts something. -/
theorem countFeeder (p q : Handle Peer) (n r : Handle Nic) (b : Bench) (c : Counters) :
    Moved p q n r { feeder := c } b (b.countPeer q (·.plus c)) := by
  refine of_nics rfl (fun x => ?_) rfl rfl
  rw [ite_self, Counters.zero_plus, peer_countPeer_plus]

end Moved

/-! ## What the handler does -/

/-- A handler of the receiving card has run, or none has; and whatever happened to
contexts, signals and interrupt lines is what it did. -/
structure Heard (r : Handle Nic) (ran : Option (List HandlerAction)) (b b' : Bench) : Prop where
  notifications : ∀ m, b'.notifications m =
    b.notifications m ++ (if m = r then ran.toList else [])
  contexts : b'.contexts = ((ran.getD []).foldl (act r) b).contexts
  signals : b'.signals = ((ran.getD []).foldl (act r) b).signals
  armed : (b'.nic r).gate.armed = lineAfter (ran.getD []) (b.nic r).gate.armed

/-- The handler of a card, if there is one, leaves the interrupt line disarmed. -/
def Masked (r : Handle Nic) (b : Bench) : Prop :=
  ∀ as, (b.nic r).handler = some as → lineAfter as true = false

/-- What an action of a handler does depends on contexts and signals alone. -/
theorem act_congr (r : Handle Nic) (hc : b'.contexts = b.contexts) (hs : b'.signals = b.signals)
    (a : HandlerAction) : (act r b' a).contexts = (act r b a).contexts ∧
      (act r b' a).signals = (act r b a).signals := by
  cases a with
  | raise s => exact ⟨hc, congrArg (Store.modify · s Signal.raise) hs⟩
  | arm => exact ⟨hc, hs⟩
  | disarm => exact ⟨hc, hs⟩
  | schedule c =>
    have hk : b'.context c = b.context c := by rw [context, hc, ← context]
    show (b'.schedule c).1.contexts = (b.schedule c).1.contexts ∧
      (b'.schedule c).1.signals = (b.schedule c).1.signals
    by_cases hi : (b.context c).phase = .idle
    · rw [schedule_of_idle hi, schedule_of_idle (by rw [hk, hi]), request_eq, request_eq, hk]
      exact ⟨congrArg (Store.modify · c fun x => { x with phase := .scheduled }) hc,
        congrArg (Store.modify · (b.context c).request Signal.raise) hs⟩
    · rw [schedule_of_not_idle hi, schedule_of_not_idle (by rw [hk]; exact hi)]
      exact ⟨hc, hs⟩

theorem foldl_act_congr (r : Handle Nic) (hc : b'.contexts = b.contexts)
    (hs : b'.signals = b.signals) (as : List HandlerAction) :
    (as.foldl (act r) b').contexts = (as.foldl (act r) b).contexts ∧
      (as.foldl (act r) b').signals = (as.foldl (act r) b).signals := by
  induction as generalizing b b' with
  | nil => exact ⟨hc, hs⟩
  | cons a as ih =>
    obtain ⟨hc', hs'⟩ := act_congr r hc hs a
    exact ih hc' hs'

theorem Nic.armed_of_interruptRuns {x : Nic} {as : List HandlerAction}
    (h : x.interruptRuns = some as) : x.gate.armed = true := by
  unfold Nic.interruptRuns at h
  split at h
  · next ha => exact ha
  · cases h

/-- What an interrupt does to contexts and signals, the handler does. -/
theorem interrupt_runs (b : Bench) (r : Handle Nic) :
    (b.interrupt r).1.contexts =
        (((b.nic r).interruptRuns.getD []).foldl (act r) b).contexts ∧
      (b.interrupt r).1.signals =
        (((b.nic r).interruptRuns.getD []).foldl (act r) b).signals := by
  unfold interrupt Nic.interruptRuns
  split
  · split
    · next as hh =>
      rw [hh]
      let b' := b.record (.nic r (.notified as))
      have hc : b'.contexts = b.contexts := rfl
      exact foldl_act_congr r hc rfl as
    · next hh =>
      rw [hh]
      exact ⟨rfl, rfl⟩
  · exact ⟨rfl, rfl⟩

namespace Heard

/-- Nothing was heard of. -/
theorem silence (hu : Unmarked b b') (hc : b'.contexts = b.contexts) (hs : b'.signals = b.signals)
    (ha : (b'.nic r).gate.armed = (b.nic r).gate.armed) : Heard r none b b' where
  notifications m := by
    rw [hu.notifications, Option.toList_none, ite_self, List.append_nil]
  contexts := hc
  signals := hs
  armed := ha

theorem then_silence (h : Heard r ran b b') (k : Heard r none b' b'') : Heard r ran b b'' where
  notifications m := by
    rw [k.notifications, h.notifications, Option.toList_none, ite_self, List.append_nil]
  contexts := k.contexts.trans h.contexts
  signals := k.signals.trans h.signals
  armed := k.armed.trans h.armed

theorem silence_then (h : Heard r none b b') (k : Heard r ran b' b'') : Heard r ran b b'' where
  notifications m := by
    rw [k.notifications, h.notifications, Option.toList_none, ite_self, List.append_nil]
  contexts := k.contexts.trans (foldl_act_congr r h.contexts h.signals _).1
  signals := k.signals.trans (foldl_act_congr r h.contexts h.signals _).2
  armed := k.armed.trans (congrArg (lineAfter _) h.armed)

/-- An interrupt runs the handler that is installed, if the line is armed. -/
theorem interrupt (b : Bench) (r : Handle Nic) :
    Heard r (b.nic r).interruptRuns b (b.interrupt r).1 where
  notifications m := by
    split
    · next hm => rw [hm, notifications_interrupt]
    · next hm => rw [notifications_interrupt_of_ne (Ne.symm hm), List.append_nil]
  contexts := (interrupt_runs b r).1
  signals := (interrupt_runs b r).2
  armed := by
    rw [armed_interrupt]
    cases hr : (b.nic r).interruptRuns with
    | none => rfl
    | some as => rw [Nic.armed_of_interruptRuns hr]; rfl

/-- If nothing was heard of, what an interrupt would do is the same. -/
theorem interruptRuns_eq (h : Heard r none b b') (hh : (b'.nic r).handler = (b.nic r).handler) :
    (b'.nic r).interruptRuns = (b.nic r).interruptRuns := by
  rw [Nic.interruptRuns, hh, h.armed]
  rfl

/-- A handler that has run and masked its card does not run again. -/
theorem interruptRuns_eq_none (h : Heard r (b.nic r).interruptRuns b b') (hm : Masked r b)
    (hh : (b'.nic r).handler = (b.nic r).handler) : (b'.nic r).interruptRuns = none := by
  cases hr : (b.nic r).interruptRuns with
  | none =>
    rw [hr] at h
    rw [h.interruptRuns_eq hh, hr]
  | some as =>
    have harmed := Nic.armed_of_interruptRuns hr
    have hinstalled : (b.nic r).handler = some as := by
      rwa [Nic.interruptRuns, if_pos harmed] at hr
    have ha := h.armed
    rw [hr, harmed] at ha
    rw [Nic.interruptRuns, ha, Option.getD_some, hm as hinstalled, if_neg Bool.false_ne_true]

end Heard

/-! ## One frame -/

/-- The room that is left. -/
theorem Moved.room_eq (h : Moved p q n r g b b') :
    (b'.nic r).room = (b.nic r).room - g.arrived.length := by
  have hcap : (b'.nic r).rx.capacity = (b.nic r).rx.capacity := h.capacity r .receive
  unfold Nic.room
  rw [Gate.isReady, h.phase r, ← Gate.isReady, hcap, h.rx, List.length_append]
  split
  · exact Nat.sub_add_eq ..
  · exact (Nat.zero_sub _).symm

/-- The wire delivers a frame to the receiving card. -/
theorem moved_deliver (p q : Handle Peer) (n : Handle Nic) (b : Bench) (r : Handle Nic)
    (f : Frame) : Moved p q n r (if 0 < (b.nic r).room then
        { arrived := [f], card := .ofReceived [f] } else { card := .ofReceiveDropped 1 })
      b (b.deliver r f).1 := by
  have h := (Moved.accept p q n b r f).trans (.of_interrupted (b.deliver_eq r f).2)
  rwa [Passage.followedBy_nil] at h

/-- Only if the card takes the frame, a handler may run. -/
theorem heard_deliver (b : Bench) (r : Handle Nic) (f : Frame) :
    Heard r (if 0 < (b.nic r).room then (b.nic r).interruptRuns else none) b
      (b.deliver r f).1 := by
  have ho := onlyCard_accept b r .receive f
  have hc := b.accept_control r .receive f
  have ha : Heard r none b (b.accept r .receive f).1 :=
    .silence (unmarked_accept b r .receive f) ho.contexts ho.signals (by rw [hc.gate])
  split
  · next hroom =>
    have hok := (b.accept_ok_iff r .receive f).mpr ((Nic.admits_iff_room _).mpr hroom)
    have hi := Heard.interrupt (b.accept r .receive f).1 r
    rw [Nic.interruptRuns, hc.gate, hc.handler, ← Nic.interruptRuns] at hi
    rw [deliver_of_ok hok]
    generalize ((b.accept r .receive f).1.interrupt r).2 = shown
    cases shown with
    | false => exact ha.silence_then hi
    | true =>
      exact (ha.silence_then hi).then_silence
        (.silence ((Unmarked.refl _).record _ rfl) rfl rfl rfl)
  · next hfull =>
    have hno : ¬ (b.nic r).Admits .receive := fun h => hfull ((Nic.admits_iff_room _).mp h)
    rw [deliver_of_error (accept_of_not_admits hno f).1]
    exact ha

/-- A peer sends a frame on, and counts what the card answers. -/
theorem crossed_peerTransmit (p : Handle Peer) (n : Handle Nic) (hq : (b.peer q).nic = r)
    (f : Frame) :
    Moved p q n r (if 0 < (b.nic r).room then
        { arrived := [f], card := .ofReceived [f], feeder := .ofSent [f] }
      else { card := .ofReceiveDropped 1, feeder := .ofSendDropped 1 })
      b (b.peerTransmit q f).1 ∧
    Heard r (if 0 < (b.nic r).room then (b.nic r).interruptRuns else none) b
      (b.peerTransmit q f).1 := by
  have hm := moved_deliver p q n b r f
  have hh := heard_deliver b r f
  have hanswer : (b.deliver r f).2 = .ok () ↔ 0 < (b.nic r).room := by
    rw [(b.deliver_eq r f).1, accept_ok_iff, Nic.admits_iff_room]
  unfold peerTransmit
  rw [hq]
  cases hd : b.deliver r f with
  | mk b' answer =>
    rw [hd] at hm hh hanswer
    cases answer with
    | ok =>
      have hroom := hanswer.mp rfl
      have hcount := hm.trans (.countFeeder p q n r b' (.ofSent [f]))
      simp only [← Counters.sent_eq_plus] at hcount
      refine ⟨?_, hh.then_silence (.silence (.of_journal rfl) rfl rfl rfl)⟩
      simpa only [if_pos hroom, Passage.followedBy, List.append_nil, Counters.plus_zero,
        Counters.zero_plus] using hcount
    | error x =>
      have hfull : ¬ 0 < (b.nic r).room := fun h => nomatch hanswer.mpr h
      have hcount := hm.trans (.countFeeder p q n r b' (.ofSendDropped 1))
      simp only [← Counters.sendDropped_eq_plus] at hcount
      have hu : Unmarked b' (b'.countPeer q Counters.sendDropped) := .of_journal rfl
      refine ⟨?_, hh.then_silence (.silence (hu.record _ rfl) rfl rfl rfl)⟩
      simpa only [if_neg hfull, Passage.followedBy, List.append_nil, Counters.plus_zero,
        Counters.zero_plus] using hcount.record _

/-- A frame leaves the transmit ring, and the peer that collects counts it. -/
theorem moved_collect (p q : Handle Peer) (r : Handle Nic)
    (ht : (b.take n .transmit).2 = some f) :
    Moved p q n r { left := [f], collector := .ofReceived [f] } b
      ((b.take n .transmit).1.countPeer p (·.received f.length)) := by
  have h := (Moved.take p q r ht).trans
    (.countCollector p q n r (b.take n .transmit).1 (.ofReceived [f]))
  simp only [← Counters.received_eq_plus] at h
  simpa only [Passage.followedBy, List.append_nil, Counters.plus_zero, Counters.zero_plus] using h

/-- Nobody hears of a frame that leaves. -/
theorem heard_collect (p : Handle Peer) (n r : Handle Nic) (b : Bench) (f : Frame) :
    Heard r none b ((b.take n .transmit).1.countPeer p (·.received f.length)) := by
  have ho := onlyCard_take b n .transmit
  refine .silence ((unmarked_take b n .transmit).trans (.of_journal rfl)) ho.contexts ho.signals ?_
  by_cases hr : r = n
  · rw [hr]
    exact congrArg Gate.armed (b.take_control n .transmit).gate
  · exact congrArg (·.gate.armed) (ho.nic r hr)

/-- What the wire does with one frame. -/
theorem crossed_one (p : Handle Peer) (hq : (b.peer q).nic = r)
    (ht : (b.take n .transmit).2 = some f) :
    Moved p q n r (if 0 < (b.nic r).room then .arriving f else .lost f) b
        (collecting p (loopback q) f ((b.take n .transmit).1, ())).1 ∧
      Heard r (if 0 < (b.nic r).room then (b.nic r).interruptRuns else none) b
        (collecting p (loopback q) f ((b.take n .transmit).1, ())).1 := by
  have hleft := moved_collect p q r ht
  have hquiet := heard_collect p n r b f
  unfold collecting loopback
  dsimp only
  generalize (b.take n .transmit).1.countPeer p (·.received f.length) = b' at hleft hquiet ⊢
  have hroom : (b'.nic r).room = (b.nic r).room := hleft.room_eq
  have hq' : (b'.peer q).nic = r := by
    rw [hleft.peers]
    exact hq
  obtain ⟨hm, hh⟩ := crossed_peerTransmit p n hq' f
  rw [hroom] at hm hh
  rw [hquiet.interruptRuns_eq (hleft.handler r)] at hh
  refine ⟨?_, hquiet.silence_then hh⟩
  have hall := hleft.trans hm
  split
  · next h =>
    simpa only [if_pos h, Passage.followedBy, Passage.arriving, List.append_nil, List.nil_append,
      Counters.plus_zero, Counters.zero_plus] using hall
  · next h =>
    simpa only [if_neg h, Passage.followedBy, Passage.lost, List.append_nil, List.nil_append,
      Counters.plus_zero, Counters.zero_plus] using hall

/-! ## A whole poll -/

/-- The wire leaves to the transfer what is queued. -/
theorem tx_collecting_loopback (p q : Handle Peer) (n : Handle Nic) (f : Frame)
    (y : Bench × Unit) :
    (((collecting p (loopback q) f y).1.nic n).ring .transmit).toList =
        ((y.1.nic n).ring .transmit).toList ∧
      ((collecting p (loopback q) f y).1.nic n).gate.phase = (y.1.nic n).gate.phase := by
  obtain ⟨b, -⟩ := y
  unfold collecting loopback
  dsimp only
  have hnic : (b.countPeer p (·.received f.length)).nic n = b.nic n := nic_countPeer ..
  have hm := (crossed_peerTransmit (b := b.countPeer p (·.received f.length)) (q := q) p n rfl f).1
  generalize ((b.countPeer p (·.received f.length)).peerTransmit q f).1 = b' at hm ⊢
  refine ⟨?_, (hm.phase n).trans (by rw [hnic])⟩
  have htx := hm.tx
  rw [hnic] at htx
  split at htx
  · exact htx.symm
  · exact htx.symm

/-- The frames that have crossed so far. -/
structure Crossed (p q : Handle Peer) (n r : Handle Nic) (b : Bench) (fs : List Frame)
    (y : Bench × Unit) : Prop where
  moved : Moved p q n r (.ofFrames (b.nic r).room fs) b y.1
  heard : Masked r b →
    Heard r (if 1 ≤ min fs.length (b.nic r).room then (b.nic r).interruptRuns else none) b y.1

theorem crossed_nil (p q : Handle Peer) (n r : Handle Nic) (b : Bench) :
    Crossed p q n r b [] (b, ()) where
  moved := by
    rw [Passage.ofFrames_nil]
    exact .of_interrupted (.refl r b)
  heard _ := by
    rw [if_neg (by simp)]
    exact .silence (.refl b) rfl rfl rfl

namespace Crossed

variable {fs : List Frame} {b₁ b₂ : Bench} {u : Unit}

theorem room_pos_iff (h : Crossed p q n r b fs (b₁, u)) :
    0 < (b₁.nic r).room ↔ fs.length < (b.nic r).room := by
  have hroom : (b₁.nic r).room = (b.nic r).room - min (b.nic r).room fs.length := by
    rw [h.moved.room_eq]
    exact congrArg _ List.length_take
  omega

/-- A handler that masks the card hears of the first frame that arrives, and of no other. -/
theorem heard_snoc (h : Crossed p q n r b fs (b₁, u)) (hm : Masked r b) (f : Frame)
    (hh : Heard r (if fs.length < (b.nic r).room then (b₁.nic r).interruptRuns else none) b₁ b₂) :
    Heard r (if 1 ≤ min (fs ++ [f]).length (b.nic r).room then (b.nic r).interruptRuns else none)
      b b₂ := by
  have hold := h.heard hm
  rw [List.length_append, List.length_singleton]
  rcases Nat.eq_zero_or_pos (b.nic r).room with hnone | hroom
  · rw [if_neg (by omega)] at hold hh ⊢
    exact hold.then_silence hh
  rw [if_pos (by omega)]
  rcases Nat.eq_zero_or_pos fs.length with hfirst | hlater
  · rw [if_neg (by omega)] at hold
    rw [if_pos (by omega), hold.interruptRuns_eq (h.moved.handler r)] at hh
    exact hold.silence_then hh
  · rw [if_pos (by omega)] at hold
    rw [hold.interruptRuns_eq_none hm (h.moved.handler r), ite_self] at hh
    exact hold.then_silence hh

/-- One more frame crosses. -/
theorem snoc (h : Crossed p q n r b fs (b₁, u)) (hq : (b.peer q).nic = r)
    (ht : (b₁.take n .transmit).2 = some f) :
    Crossed p q n r b (fs ++ [f]) (collecting p (loopback q) f ((b₁.take n .transmit).1, u)) := by
  have hq₁ : (b₁.peer q).nic = r := by
    rw [h.moved.peers]
    exact hq
  obtain ⟨hm, hh⟩ := crossed_one p hq₁ ht
  simp only [h.room_pos_iff] at hm hh
  refine ⟨?_, fun hmask => h.heard_snoc hmask f hh⟩
  rw [Passage.ofFrames_snoc]
  exact h.moved.trans hm

end Crossed

/-- The loop of a poll. -/
theorem crossed_drain (hr : Reachable n b) (hq : (b.peer q).nic = r) (budget : Nat) :
    (drain n budget (collecting p (loopback q)) (b, ())).2 =
        min budget (b.nic n).tx.toList.length ∧
      Crossed p q n r b ((b.nic n).tx.toList.take (min budget (b.nic n).tx.toList.length))
        (drain n budget (collecting p (loopback q)) (b, ())).1 := by
  obtain ⟨hm, -, hc⟩ := pump_of_ring_kept (i := .transmit) (collecting p (loopback q))
    (Crossed p q n r b) (crossed_nil p q n r b) (tx_collecting_loopback p q n)
    (fun _ _ _ _ h ht => h.snoc hq ht) (hr.sealed · .transmit) budget
  rw [List.nil_append, List.take_eq_take_min] at hc
  exact ⟨hm, hc⟩

/-- A look that finds nothing moves nothing. -/
theorem moved_foundNothing (h : Moved p q n r g b b') :
    Moved p q n r (g.followedBy { collector := .ofReceiveFailed 1 }) b
      ((b'.record (.peer p .foundNothing)).countPeer p Counters.receiveFailed) := by
  have hcount := (h.record (.peer p .foundNothing)).trans
    (.countCollector p q n r _ (.ofReceiveFailed 1))
  simpa only [← Counters.receiveFailed_eq_plus] using hcount

/-- Nobody hears of it. -/
theorem heard_foundNothing (p : Handle Peer) (h : Heard r ran b b') :
    Heard r ran b
      ((b'.record (.peer p .foundNothing)).countPeer p Counters.receiveFailed) :=
  h.then_silence (.silence (((Unmarked.refl b').record _ rfl).trans (.of_journal rfl)) rfl rfl rfl)

/-- **Exactly the right frames cross.**  A peer polls its card with a budget, and another
peer, or the same one, sends each frame on.  The oldest frames leave the first card as far
as the budget goes, and of these the oldest arrive at the second as far as there is room.
Everybody counts what he should, nothing else is changed, and a handler that masks the
second card runs once if a frame arrived and its line was armed. -/
theorem pollPeer_loopback (hr : Reachable n b) (hp : (b.peer p).nic = n)
    (hq : (b.peer q).nic = r) (budget : Nat) :
    let t := (b.nic n).tx.toList
    let m := min budget t.length
    let k := min m (b.nic r).room
    let out := pollPeer p budget (loopback q) (b, ())
    out.2 = m ∧
      Moved p q n r (.ofPoll t m k (if m = 0 ∧ 0 < budget then 1 else 0)) b out.1.1 ∧
      (Masked r b →
        Heard r (if 1 ≤ k then (b.nic r).interruptRuns else none) b out.1.1) := by
  dsimp only
  obtain ⟨hm, hmoved, hheard⟩ := crossed_drain (p := p) hr hq budget
  have hle := Nat.min_le_right budget (b.nic n).tx.toList.length
  rw [Passage.ofFrames_take hle] at hmoved
  rw [List.length_take_of_le hle] at hheard
  unfold pollPeer
  rw [show ((b, ()) : Bench × Unit).1.peer p = b.peer p from rfl, hp]
  generalize drain n budget (collecting p (loopback q)) (b, ()) = x at hm hmoved hheard ⊢
  obtain ⟨⟨b', u⟩, m⟩ := x
  dsimp only at hm hmoved hheard ⊢
  rw [← hm] at hmoved hheard ⊢
  refine ⟨rfl, ?_⟩
  split
  · rw [← Passage.ofPoll_failed]
    exact ⟨moved_foundNothing hmoved, fun h => heard_foundNothing p (hheard h)⟩
  · exact ⟨hmoved, hheard⟩

/-- A card that hears itself.  Three frames wait, two of them leave, and there is room for
one.  The handler masks the card, and so it runs once. -/
theorem pollPeer_loopback_full :
    ∃ b, Reachable ⟨0⟩ b ∧ (b.peer ⟨0⟩).nic = ⟨0⟩ ∧
      (b.nic ⟨0⟩).tx.toList = [⟨[1]⟩, ⟨[2]⟩, ⟨[3]⟩] ∧ (b.nic ⟨0⟩).room = 1 ∧
      (pollPeer ⟨0⟩ 2 (loopback ⟨0⟩) (b, ())).2 = 2 ∧
      Moved ⟨0⟩ ⟨0⟩ ⟨0⟩ ⟨0⟩ (.ofPoll [⟨[1]⟩, ⟨[2]⟩, ⟨[3]⟩] 2 1 0) b
        (pollPeer ⟨0⟩ 2 (loopback ⟨0⟩) (b, ())).1.1 ∧
      Heard ⟨0⟩ (some [.disarm]) b (pollPeer ⟨0⟩ 2 (loopback ⟨0⟩) (b, ())).1.1 := by
  obtain ⟨x, hx⟩ : ∃ x, Nic.ofSizes 4 2 = .ok x := ⟨_, rfl⟩
  let b₁ : Bench := ((default : Bench).addNic x).2
  let b₂ := (b₁.attachPeer ⟨0⟩).2
  let b₃ := (b₂.installHandler ⟨0⟩ [.disarm]).bringUp ⟨0⟩
  let b₄ := [1, 2, 3].foldl (fun b k => (b.transmit ⟨0⟩ ⟨[k]⟩).1) b₃
  have attached : b₂.nic ⟨0⟩ = (b₁.setHook ⟨0⟩ ⟨0⟩).nic ⟨0⟩ := rfl
  have setUp : Reaches ⟨0⟩ (fun _ => True) b₁ b₃ :=
    ((((Reaches.refl _ _ b₁).call (.setHook ⟨0⟩ ⟨0⟩) trivial).elsewhere attached).call
      (.installHandler ⟨0⟩ [.disarm]) trivial).call (.card ⟨0⟩ .bringUp) trivial
  have run : Reaches ⟨0⟩ (fun _ => True) b₁ b₄ :=
    ((setUp.call (.card ⟨0⟩ (.transmit ⟨[1]⟩)) trivial).call
      (.card ⟨0⟩ (.transmit ⟨[2]⟩)) trivial).call (.card ⟨0⟩ (.transmit ⟨[3]⟩)) trivial
  have hr : Reachable ⟨0⟩ b₄ := ⟨4, 2, x, default, b₁, hx, rfl, run⟩
  obtain rfl := Except.ok.inj hx
  have hp : (b₄.peer ⟨0⟩).nic = ⟨0⟩ := by decide +kernel
  have htx : (b₄.nic ⟨0⟩).tx.toList = [⟨[1]⟩, ⟨[2]⟩, ⟨[3]⟩] := by decide +kernel
  have hroom : (b₄.nic ⟨0⟩).room = 1 := by decide +kernel
  have hhandler : (b₄.nic ⟨0⟩).handler = some [.disarm] := by decide +kernel
  have hruns : (b₄.nic ⟨0⟩).interruptRuns = some [.disarm] := by decide +kernel
  have hmask : Masked ⟨0⟩ b₄ := fun as has => by
    rw [hhandler] at has
    cases has
    rfl
  generalize b₄ = b at hr hp htx hroom hruns hmask
  obtain ⟨hm, hmoved, hheard⟩ := pollPeer_loopback hr hp hp 2
  rw [htx] at hm hmoved hheard
  rw [hroom] at hmoved hheard
  rw [hruns] at hheard
  exact ⟨b, hr, hp, htx, hroom, hm, hmoved, hheard hmask⟩

end Bench
end SoftNic
