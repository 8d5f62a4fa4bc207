import SoftNic.Proofs.Programs

/-! # A closed device is a new one

Closing a device stops its card, removes the handler, disables the context, releases what
is queued and starts the counters of the device again.  Whatever was done before, that
leaves nothing of it (`Bench.Restored`): the card, the context and the device are then what
`Bench.renewed` would put in their place, which is what a device that was just made
consists of (`renewed_of_buildDevice`).

Three things outlast the closing.  They are not the device's: the hook, which the other
end has installed, the counters of the card, and a request that the context raised and
nobody has taken yet.  No program sees the counters, and so none can tell the closed
device from a new one with the same hook.  If the request is missing from the bench with
the new device, that is still true of programs which do not go by it.
-/
namespace SoftNic

/-- A ring that was rewound is a new one. -/
theorem Ring.ofCapacity_reset {α : Type} (r : Ring α) : ofCapacity r.capacity = .ok r.reset.2 := by
  rw [ofCapacity_eq_ok_iff, reset_eq]
  exact ⟨r.two_le_capacity, r.capacity_le_limit, rfl⟩

namespace Nic

/-- A card whose device was closed is a new one, apart from its hook and its counters. -/
theorem closed_eq_new (y : Nic) : ∃ x, ofSizes y.tx.capacity y.rx.capacity = .ok x ∧
    x.counters = Counters.zero ∧ y.closed = { x with hook := y.hook, counters := y.counters } :=
  ⟨_, ofSizes_eq_ok_iff.mpr ⟨_, _, y.tx.ofCapacity_reset, y.rx.ofCapacity_reset, rfl⟩, rfl, rfl⟩

@[simp] theorem closed_closed (y : Nic) : y.closed.closed = y.closed := by
  show ({ y.emptied.emptied with handler := none, gate := {} } : Nic) = y.closed
  rw [emptied_emptied]
  rfl

end Nic

/-- The gap between a bench on which a device was closed and one on which it is new: the
card has counted before. -/
def Gap.closing (d : Handle Device) (b b' : Bench) : Gap where
  counted m := if m = (b.device d).nic then (b.nic m).counters else Counters.zero
  stale := none
  past := b'.journal
  past' := b.journal

namespace Bench

variable {d : Handle Device} {b b' : Bench} {x : Nic}

/-! ## New devices -/

/-- The bench with a new device in the place of one that is there, on a new card and with
a new context.  The card keeps the hook, the device its name, its address and its weight. -/
def renewed (b : Bench) (d : Handle Device) (x : Nic) : Bench :=
  let y := b.device d
  { b with
    nics := b.nics.set y.nic { x with hook := (b.nic y.nic).hook }
    contexts := b.contexts.set y.context { request := (b.context y.context).request }
    devices := b.devices.set d
      { name := y.name, address := y.address, nic := y.nic, context := y.context
        weight := y.weight } }

/-- What a new device with a card of its own brings to a bench. -/
theorem adds_of_buildDevice {y : Settings} {s : Handle Signal}
    (h : b.buildDevice y s = .ok (d, b')) : ∃ x n c, Nic.ofSizes y.txRing y.rxRing = .ok x ∧
      b.nics.add x = (n, b'.nics) ∧ b.contexts.add { request := s } = (c, b'.contexts) ∧
      b.devices.add ⟨y.name, y.address, n, c, y.weight, {}⟩ = (d, b'.devices) := by
  unfold buildDevice at h
  split at h
  · cases h
  · next z hz =>
    obtain ⟨-, rfl⟩ := Settings.checked_eq_ok_iff.mp hz
    split at h
    · cases h
    · next x hx =>
      dsimp only at h
      rw [newDevice, hz] at h
      cases h
      exact ⟨x, _, _, hx, rfl, rfl, rfl⟩

/-- A device that was just made is new: putting a new one in its place changes nothing. -/
theorem renewed_of_buildDevice {y : Settings} {s : Handle Signal}
    (h : b.buildDevice y s = .ok (d, b')) :
    ∃ x, Nic.ofSizes y.txRing y.rxRing = .ok x ∧ b'.renewed d x = b' := by
  obtain ⟨x, n, c, hx, hn, hc, hd⟩ := adds_of_buildDevice h
  refine ⟨x, hx, ?_⟩
  unfold renewed
  dsimp only
  rw [show b'.device d = _ from Store.get_of_add hd, show b'.nic n = x from Store.get_of_add hn,
    show b'.context c = _ from Store.get_of_add hc, Store.set_of_add hd, Store.set_of_add hc]
  show { b' with nics := b'.nics.set n x } = b'
  rw [Store.set_of_add hn]

/-! ## Closed devices -/

/-- **What closing a device leaves.** -/
structure Restored (d : Handle Device) (b b' : Bench) : Prop where
  gate : (b'.nic (b.device d).nic).gate = ⟨.uninitialized, false⟩
  /-- The rings are new ones of the same capacity. -/
  ring : ∀ i, Ring.ofCapacity ((b.nic (b.device d).nic).ring i).capacity =
    .ok ((b'.nic (b.device d).nic).ring i)
  handler : (b'.nic (b.device d).nic).handler = none
  hook : (b'.nic (b.device d).nic).hook = (b.nic (b.device d).nic).hook
  counters : (b'.nic (b.device d).nic).counters = (b.nic (b.device d).nic).counters
  context : b'.context (b.device d).context =
    { phase := .disabled, request := (b.context (b.device d).context).request }
  device : b'.device d = { b.device d with counters := Counters.zero }
  /-- The rest of the bench is untouched. -/
  nics : ∀ m, m ≠ (b.device d).nic → b'.nic m = b.nic m
  signals : b'.signals = b.signals
  peers : b'.peers = b.peers
  endpoints : b'.endpoints = b.endpoints

/-- The bench on which a device was closed, with the given events on record. -/
def closedDown (b : Bench) (d : Handle Device) (log : List Event) : Bench :=
  (b.afterClosing d log).countDevice d fun _ => Counters.zero

section ClosedDown

variable (b d) (log : List Event)

@[simp] theorem nic_closedDown :
    (b.closedDown d log).nic (b.device d).nic = (b.nic (b.device d).nic).closed :=
  b.nics.get_set_self _ _

@[simp] theorem context_closedDown : (b.closedDown d log).context (b.device d).context =
    { b.context (b.device d).context with phase := .disabled } :=
  b.contexts.get_set_self _ _

@[simp] theorem device_closedDown :
    (b.closedDown d log).device d = { b.device d with counters := Counters.zero } :=
  b.devices.get_modify_self d _

theorem restored_closedDown : Restored d b (b.closedDown d log) where
  gate := by rw [nic_closedDown]; rfl
  ring i := by
    rw [nic_closedDown]
    cases i with
    | transmit => exact (b.nic _).tx.ofCapacity_reset
    | receive => exact (b.nic _).rx.ofCapacity_reset
  handler := by rw [nic_closedDown]; rfl
  hook := by rw [nic_closedDown]; rfl
  counters := by rw [nic_closedDown]; rfl
  context := context_closedDown d b log
  device := device_closedDown d b log
  nics _ hm := b.nics.get_set_of_ne hm _
  signals := rfl
  peers := rfl
  endpoints := rfl

/-- Closing a device that is closed writes into the journal, and that is all. -/
theorem closeDevice_closedDown : ∃ log', (b.closedDown d log).closeDevice d =
    ({ b.closedDown d log with journal := log' ++ (b.closedDown d log).journal }, .ok ()) := by
  obtain ⟨log', he⟩ := closeDevice_afterClosing (b := b.closedDown d log) (d := d) (by
    rw [device_closedDown, context_closedDown]
    exact nofun)
  refine ⟨log', he.trans ?_⟩
  have hn : (b.closedDown d log).nics.set (b.device d).nic (b.nic (b.device d).nic).closed =
      (b.closedDown d log).nics := b.nics.set_set _ _ _
  have hc : (b.closedDown d log).contexts.set (b.device d).context
      { b.context (b.device d).context with phase := .disabled } =
      (b.closedDown d log).contexts := b.contexts.set_set _ _ _
  have hd : (b.closedDown d log).devices.set d { b.device d with counters := Counters.zero } =
      (b.closedDown d log).devices := b.devices.set_set _ _ _
  have hx : ∀ b : Bench, (b.afterClosing d log').countDevice d (fun _ => Counters.zero) = { b with
      nics := b.nics.set (b.device d).nic (b.nic (b.device d).nic).closed
      contexts := b.contexts.set (b.device d).context
        { b.context (b.device d).context with phase := .disabled }
      devices := b.devices.set d { b.device d with counters := Counters.zero }
      journal := log' ++ b.journal } := fun _ => rfl
  rw [hx, device_closedDown]
  dsimp only
  rw [nic_closedDown, Nic.closed_closed, context_closedDown, hn, hc, hd]

/-- A closed device cannot be told from a new one. -/
theorem alike_closedDown (hb : b.nics.Has (b.device d).nic)
    (hz : x.counters = Counters.zero) (hx : (b.nic (b.device d).nic).closed =
      { x with hook := (b.nic (b.device d).nic).hook
               counters := (b.nic (b.device d).nic).counters }) :
    Alike (.closing d b (b.closedDown d log)) (b.closedDown d log) (b.renewed d x) where
  nics := rfl
  nic m := by
    by_cases hm : m = (b.device d).nic
    · subst hm
      rw [nic_closedDown, hx, show (b.renewed d x).nic (b.device d).nic = _ from
        b.nics.get_set_self _ _]
      simp [Gap.closing, Nic.since, hz]
    · rw [show (b.renewed d x).nic m = b.nic m from b.nics.get_set_of_ne hm _,
        (restored_closedDown d b log).nics m hm, show (Gap.closing d b _).counted m = _ from
          if_neg hm, Nic.since_zero]
  uncounted m hm := if_neg fun he : m = (b.device d).nic => hm (he ▸ hb)
  signals := rfl
  signal t := .refl _
  signal_eq _ _ := rfl
  contexts := rfl
  devices := rfl
  peers := rfl
  endpoints := rfl
  journal := ⟨[], rfl, rfl⟩

end ClosedDown

/-- A gap remains if the request on a signal is taken on one bench only. -/
theorem Alike.takeStale {g : Gap} {s : Handle Signal} (h : Alike { g with stale := none } b b') :
    Alike { g with stale := some s } b (b'.takeSignal s).1 :=
  { h with
    signal := fun t => by
      rw [← h.signal_eq t nofun]
      by_cases ht : t = s
      · rw [ht, Bench.takeSignal, signal_modifySignal_self]
        exact .clear _
      · rw [Bench.takeSignal, signal_modifySignal_of_ne _ ht]
        exact .refl _
    signal_eq := fun t ht => by
      have hne : t ≠ s := fun he => ht (congrArg some he.symm)
      rw [Bench.takeSignal, signal_modifySignal_of_ne _ hne]
      exact h.signal_eq t nofun }

/-- Between two runs of programs, closing a device comes to an end. -/
theorem closeDevice_ok_of_run {α : Type} (P : Program α) (d : Handle Device) :
    ((P.run default).1.closeDevice d).2 = .ok () := by
  obtain ⟨log, he⟩ := closeDevice_afterClosing (b := (P.run default).1) (d := d) fun hp =>
    nomatch P.noNewPass default _ hp
  rw [he]

/-- **Closing a device returns it to its initial state.**  Outside of its own pass, a
device on any bench can be closed.  The card, the context and the device are then as a new
one would have them, but for the hook and the counters of the card, which stay as they
are; closing once more is only written down.

From there on, no program can tell the device from a new one on a card of the same size,
with the same address and the same hook: the program is told the same on both benches,
the same is written down, and afterwards the benches differ as before, by a constant in the
counters of the card.  That is so if the scheduler has the same requests on record for
both; and if the one that the closed device may have left is missing with the new device,
it is so for every program that overlooks this request. -/
theorem closeDevice_restores (hb : b.nics.Has (b.device d).nic)
    (hp : (b.context (b.device d).context).phase ≠ .draining) :
    ∃ b₁, b.closeDevice d = (b₁, .ok ()) ∧ Restored d b b₁ ∧
      (∃ log, b₁.closeDevice d = ({ b₁ with journal := log ++ b₁.journal }, .ok ())) ∧
      ∃ x, Nic.ofSizes (b.nic (b.device d).nic).tx.capacity (b.nic (b.device d).nic).rx.capacity =
          .ok x ∧
        (∀ {α : Type} (P : Program α), (P.run (b.renewed d x)).2 = (P.run b₁).2 ∧
          Alike (.closing d b b₁) (P.run b₁).1 (P.run (b.renewed d x)).1) ∧
        let s := (b.context (b.device d).context).request
        ∀ {α : Type} (P : Program α), P.Overlooks s →
          (P.run ((b.renewed d x).takeSignal s).1).2 = (P.run b₁).2 ∧
            Alike { Gap.closing d b b₁ with stale := some s } (P.run b₁).1
              (P.run ((b.renewed d x).takeSignal s).1).1 := by
  obtain ⟨log, he⟩ := closeDevice_afterClosing hp
  obtain ⟨x, hnew, hz, hx⟩ := (b.nic (b.device d).nic).closed_eq_new
  have ha := alike_closedDown d b log hb hz hx
  refine ⟨b.closedDown d log, he, restored_closedDown d b log, closeDevice_closedDown d b log, x,
    hnew, fun P => ?_, fun P hP => ?_⟩
  · have h := P.run_agrees (fun _ (hs : none = some _) => nomatch hs) ha
    exact ⟨h.answer, h.bench⟩
  · have h := P.run_agrees (g := { Gap.closing d b (b.closedDown d log) with
      stale := some (b.context (b.device d).context).request }) (fun s hs => ?_) ha.takeStale
    · exact ⟨h.answer, h.bench⟩
    · obtain rfl := Option.some.inj hs
      exact hP

/-- A device that was opened and has asked for a pass since, because a frame has come. -/
def requested : Bench :=
  let b := (((default : Bench).addNic default).2.addSignal (.flag false)).2
  (((b.addDevice .standard ⟨0⟩ ⟨0⟩).2.openDevice ⟨0⟩).deliver ⟨0⟩ ⟨[1, 2, 3]⟩).1

/-- A program that opens a device, lets a frame come, and tells what a pass hands over. -/
def reopening (d : Handle Device) (n : Handle Nic) : Program (List Frame) :=
  .op (.openDevice d) fun _ => .op (.call (.card n (.deliver ⟨[4]⟩))) fun _ =>
    .transfer (.device d) (fun f fs => .done (fs ++ [f])) [] fun _ fs => .done fs

/-- The device is closed with a frame in its ring and a request on record.  Opened again or
new, it hands over the one frame that has come since. -/
theorem closeDevice_restores_requested :
    ∃ b₁ x, requested.closeDevice ⟨0⟩ = (b₁, .ok ()) ∧ Restored ⟨0⟩ requested b₁ ∧
      (requested.nic ⟨0⟩).rx.toList = [⟨[1, 2, 3]⟩] ∧ (b₁.signal ⟨0⟩).isPending = true ∧
      ((reopening ⟨0⟩ ⟨0⟩).run b₁).2 = [⟨[4]⟩] ∧
      ((reopening ⟨0⟩ ⟨0⟩).run ((requested.renewed ⟨0⟩ x).takeSignal ⟨0⟩).1).2 = [⟨[4]⟩] := by
  obtain ⟨b₁, he, hr, -, x, -, -, hnew⟩ := closeDevice_restores (b := requested) (d := ⟨0⟩)
    (by decide +kernel) (by decide +kernel)
  have hs : (requested.context (requested.device ⟨0⟩).context).request = ⟨0⟩ := by decide +kernel
  have hP : (reopening ⟨0⟩ ⟨0⟩).Overlooks ⟨0⟩ :=
    ⟨nofun, fun _ _ => ⟨nofun, fun _ _ => ⟨fun _ _ => trivial, fun _ _ => trivial⟩⟩⟩
  have hpass : ((reopening ⟨0⟩ ⟨0⟩).run b₁).2 = [⟨[4]⟩] := by
    rw [show b₁ = (requested.closeDevice ⟨0⟩).1 by rw [he]]
    decide +kernel
  refine ⟨b₁, x, he, hr, by decide +kernel, ?_, hpass, ?_⟩
  · rw [signal, hr.signals]
    decide +kernel
  · rw [hs] at hnew
    exact (hnew _ hP).1.trans hpass

end Bench
end SoftNic
