import SoftNic.Proofs.RunLoop

/-! # What an opened device finds

Opening a device is four operations in a row, and three of them are ignored in some
states: a card that is ready is neither set up nor brought up again, and a context that is
enabled is not enabled again.  So the card of an open device is always ready and always
has the handler of the device, but what else opening achieves depends on who had the card
before.

A card that was down comes up with an armed line and an empty ring.  One that others have
brought up already keeps its line and its ring, and then opening asks for no pass: frames
that wait behind a disarmed line go on waiting.  The receive path is live after the
opening exactly if the card was down or the path was live before (`openDevice_live_iff`).
-/
namespace SoftNic
namespace Bench

variable {d : Handle Device} {n : Handle Nic} {c : Handle PollContext} {s : Handle Signal}
  {b : Bench}

/-- The receive path of a device cannot stall: a pass is asked for, or no frame waits and
the next one interrupts. -/
def Live (d : Handle Device) (b : Bench) : Prop :=
  (b.context (b.device d).context).phase = .scheduled ∨
    (b.nic (b.device d).nic).gate.armed = true ∧ (b.nic (b.device d).nic).rx.toList = []

theorem Attached.live_iff (h : Attached d n c s b) :
    Live d b ↔ (b.context c).phase = .scheduled ∨
      (b.nic n).gate.armed = true ∧ (b.nic n).rx.toList = [] := by
  rw [Live, h.nic_eq, h.context_eq]

/-- Opening asks for no pass and takes no request back. -/
theorem scheduled_openDevice (h : Attached d n c s b) :
    ((b.openDevice d).context c).phase = .scheduled ↔ (b.context c).phase = .scheduled := by
  rw [(openDevice_spec h).2.2.1, PollPhase.enabled_eq_iff (by decide)]
  exact and_iff_left (by decide)

/-- A card that was down comes up empty and armed. -/
theorem live_openDevice_of_down (h : Attached d n c s b) (hr : (b.nic n).gate.isReady = false) :
    Live d (b.openDevice d) := by
  obtain ⟨ha, hn, -, -⟩ := openDevice_spec h
  rw [ha.live_iff, hn, Nic.opened_of_not_ready hr]
  exact Or.inr ⟨rfl, (b.nic n).toList_ring_emptied .receive⟩

/-- A card that was up keeps its line and its ring. -/
theorem live_openDevice_of_ready (h : Attached d n c s b) (hr : (b.nic n).gate.isReady = true) :
    Live d (b.openDevice d) ↔ Live d b := by
  obtain ⟨ha, hn, -, -⟩ := openDevice_spec h
  rw [ha.live_iff, h.live_iff, scheduled_openDevice h, hn, Nic.opened_of_ready hr]

/-- **Opening a device brings up a live receive path unless it finds a stalled one.**  On
any bench, the card of a device that was just opened is ready and has the device's
handler; and its receive path is live if and only if the card was down before, or the path
was live before. -/
theorem openDevice_live_iff (b : Bench) (d : Handle Device) :
    ((b.openDevice d).nic (b.device d).nic).gate.isReady = true ∧
      ((b.openDevice d).nic (b.device d).nic).handler = some (b.device d).handler ∧
      (Live d (b.openDevice d) ↔
        (b.nic (b.device d).nic).gate.isReady = false ∨ Live d b) := by
  have h : Attached d (b.device d).nic (b.device d).context
      (b.context (b.device d).context).request b := ⟨rfl, rfl, rfl⟩
  rw [(openDevice_spec h).2.1]
  refine ⟨Nic.isReady_opened .., Nic.handler_opened .., ?_⟩
  cases hr : (b.nic (b.device d).nic).gate.isReady with
  | false => exact iff_of_true (live_openDevice_of_down h hr) (Or.inl rfl)
  | true =>
    rw [live_openDevice_of_ready h hr]
    exact ⟨Or.inr, fun hl => hl.resolve_left nofun⟩

/-- A device, and a card that others have used before it: they brought the card up, let a
frame arrive, and disarmed the line. -/
def borrowed : Bench :=
  let b := (((default : Bench).addNic default).2.addDevice .standard ⟨0⟩ ⟨0⟩).2
  (((b.bringUp ⟨0⟩).deliver ⟨0⟩ ⟨[1, 2, 3]⟩).1).mask ⟨0⟩

/-- When the device is opened, the frame waits, the line is disarmed, and nobody was asked
for a pass. -/
theorem openDevice_stalled :
    ¬ Live ⟨0⟩ (borrowed.openDevice ⟨0⟩) ∧
      ((borrowed.openDevice ⟨0⟩).context (borrowed.device ⟨0⟩).context).phase = .idle ∧
      ((borrowed.openDevice ⟨0⟩).nic ⟨0⟩).gate = ⟨.ready, false⟩ ∧
      ((borrowed.openDevice ⟨0⟩).nic ⟨0⟩).rx.toList = [⟨[1, 2, 3]⟩] := by
  refine ⟨?_, by decide +kernel, by decide +kernel, by decide +kernel⟩
  unfold Live
  decide +kernel

end Bench
end SoftNic
