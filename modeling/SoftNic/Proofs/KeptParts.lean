import SoftNic.Proofs.Closing
import SoftNic.Proofs.Ownership

/-! # What a device keeps

Of a device that is on a bench, calls change two things: its counters, which nearly every
call does, and its address, which there is one call for.  So whatever is read off a device
without its counters (`part` below) is kept by every call but that one, and by that one too
if it does not look at the address (`Op.keeps`, `Transfer.keeps`).  A transfer keeps it if
what is done with the frames does, and so no program changes it (`Program.keeps_run`).
-/
namespace SoftNic
namespace Bench

variable {α : Type} {part : Device → α} {d k : Handle Device} {n : Handle Nic}
  {b b' b'' : Bench} {a : MacAddress}

/-- A device that was there is still there, with this part of it as it was. -/
def Keeps (part : Device → α) (d : Handle Device) (b b' : Bench) : Prop :=
  b.devices.Has d → b'.devices.Has d ∧ part (b'.device d) = part (b.device d)

namespace Keeps

theorem refl (part : Device → α) (d : Handle Device) (b : Bench) : Keeps part d b b :=
  fun hd => ⟨hd, rfl⟩

theorem trans (h : Keeps part d b b') (h' : Keeps part d b' b'') : Keeps part d b b'' := by
  intro hd
  obtain ⟨hd', ha⟩ := h hd
  obtain ⟨hd'', ha'⟩ := h' hd'
  exact ⟨hd'', ha'.trans ha⟩

theorem of_devices (h : b'.devices = b.devices) : Keeps part d b b' := by
  intro hd
  rw [device, h]
  exact ⟨hd, rfl⟩

/-- Putting a new device on the bench. -/
theorem of_add {y : Device} (h : b.devices.add y = (k, b'.devices)) : Keeps part d b b' := by
  intro hd
  exact ⟨hd.add h, congrArg part (hd.get_of_add h)⟩

theorem modifyDevice (h : Keeps part d b b') (k : Handle Device) {f : Device → Device}
    (hf : k = d → ∀ y, part (f y) = part y) : Keeps part d b (b'.modifyDevice k f) := by
  refine h.trans fun hd => ⟨hd, ?_⟩
  by_cases hk : d = k
  · rw [hk, device, Bench.modifyDevice, Store.get_modify_self]
    exact hf hk.symm _
  · rw [device, Bench.modifyDevice, Store.get_modify_of_ne _ hk, ← device]

end Keeps

theorem AtCard.keeps (h : AtCard n b b') : Keeps part d b b' :=
  .of_devices h.devices

theorem keeps_benchStep (b : Bench) (op : BenchOp) : Keeps part d b (benchStep b op) := by
  cases op with
  | card n op => exact (atCard_cardStep n b op).keeps
  | installHandler n as => exact (onlyCard_installHandler b n as).atCard.keeps
  | setHook n s => exact .of_devices rfl
  | clearHook n => exact .of_devices rfl
  | enable c => exact (interrupted_enableContext ⟨0⟩ b c).1.atCard.keeps
  | disable c =>
    refine .of_devices ?_
    show (b.disableContext c).1.devices = b.devices
    unfold disableContext
    split <;> rfl
  | schedule c => exact (interrupted_schedule ⟨0⟩ b c).atCard.keeps

theorem keeps_clearHookIf (b : Bench) (n : Handle Nic) (s : Handle Signal) :
    Keeps part d b (b.clearHookIf n s) := by
  unfold clearHookIf
  split
  · exact .of_devices rfl
  · exact .refl part d b

theorem keeps_peerTransmit (b : Bench) (p : Handle Peer) (f : Frame) :
    Keeps part d b (b.peerTransmit p f).1 := by
  have hd := (atCard_deliver b (b.peer p).nic f).devices
  rcases peerTransmit_cases (rfl : (b.peer p).nic = _) f with ⟨-, hs⟩ | ⟨r, e, -, hs⟩
  · rw [hs]
    exact .of_devices hd
  · rw [hs]
    exact .of_devices hd

/-- Another device's address may be changed, and this one's if it is not looked at. -/
theorem keeps_setAddress (h : k ≠ d ∨ ∀ (y : Device) a, part { y with address := a } = part y)
    (b : Bench) (a : MacAddress) : Keeps part d b (b.setAddress k a).1 := by
  unfold setAddress
  split
  · have hr : Keeps part d b (b.recordDevice k (.addressSet a)) := .of_devices rfl
    exact hr.modifyDevice k fun he y => (h.resolve_left (not_not_intro he)) y a
  · exact .refl part d b

theorem add_of_newDevice {x : Settings} {s : Handle Signal}
    (h : b.newDevice x n s = .ok (d, b')) : ∃ c,
      b.contexts.add { request := s } = (c, b'.contexts) ∧
      b.devices.add ⟨x.name, x.address, n, c, x.weight, {}⟩ = (d, b'.devices) ∧
      b'.nics = b.nics := by
  unfold newDevice at h
  split at h
  · cases h
  · next z hz =>
    obtain ⟨-, rfl⟩ := Settings.checked_eq_ok_iff.mp hz
    cases h
    exact ⟨_, rfl, rfl, rfl⟩

theorem keeps_made {ε β : Type} {r : Except ε (β × Bench)}
    (h : ∀ y b', r = .ok (y, b') → Keeps part d b b') : Keeps part d b (b.made r).1 := by
  cases r with
  | error e => exact .refl part d b
  | ok m => exact h m.1 m.2 rfl

/-! ### Transfers -/

section Transfers

variable {γ : Type} {sink : Sink γ}

theorem keeps_pump (hs : ∀ f y, Keeps part d y.1 (sink f y).1) (n : Handle Nic)
    (i : Direction) (budget : Nat) (x : Bench × γ) :
    Keeps part d x.1 (pump (·.take n i) sink budget x).1.1 := by
  have htake : ∀ b : Bench, Keeps part d b (b.take n i).1 := fun b =>
    (onlyCard_take b n i).atCard.keeps
  refine pump_invariant (P := fun y => Keeps part d x.1 y.1) ?_ ?_ budget (.refl part d x.1)
  · intro b g hb _
    exact hb.trans (htake b)
  · intro b g f hb _
    exact (hb.trans (htake b)).trans (hs f ((b.take n i).1, g))

theorem keeps_poll (hs : ∀ f y, Keeps part d y.1 (sink f y).1) (c : Handle PollContext)
    (n : Handle Nic) (budget : Nat) (x : Bench × γ) :
    Keeps part d x.1 (poll c n budget sink x).1.1 := by
  obtain ⟨b, g⟩ := x
  have hstart : Keeps part d b (b.startPass c) := .of_devices rfl
  have hp := hstart.trans (keeps_pump hs n .receive budget (b.startPass c, g))
  unfold poll
  dsimp only
  split
  · exact hp.trans (interrupted_endPass _ c n _ budget).atCard.keeps
  · exact .of_devices rfl
  · exact .of_devices rfl

end Transfers

/-! ### Calls that count -/

section Counting

variable (hpart : ∀ (y : Device) c, part { y with counters := c } = part y)
include hpart

theorem Keeps.countDevice (h : Keeps part d b b') (k : Handle Device) (g : Counters → Counters) :
    Keeps part d b (b'.countDevice k g) :=
  h.modifyDevice k fun _ y => hpart y (g y.counters)

theorem keeps_closeDevice (b : Bench) (k : Handle Device) :
    Keeps part d b (b.closeDevice k).1 := by
  have ho := onlyCard_closing b (b.device k).nic (.device (b.device k).name.text .closed)
  by_cases hp : (b.context (b.device k).context).phase = .draining
  · unfold closeDevice
    dsimp only
    rw [disableContext, recordDevice, ho.context_eq, hp]
    exact ho.atCard.keeps
  · obtain ⟨log, he⟩ := closeDevice_afterClosing hp
    rw [he]
    have ha : Keeps part d b (b.afterClosing k log) := .of_devices rfl
    exact ha.countDevice hpart k fun _ => Counters.zero

theorem keeps_send (b : Bench) (k : Handle Device) (f : Frame) :
    Keeps part d b (b.send k f).1 := by
  have pass : ∀ e, Keeps part d b ((b.record e).transmit (b.device k).nic f).1 := by
    intro e
    have hr : Keeps part d b (b.record e) := .of_devices rfl
    exact hr.trans (atCard_transmit _ _ f).keeps
  rcases send_cases (rfl : (b.device k).nic = _) f with
    ⟨-, e, e', hs⟩ | ⟨-, e, ⟨-, hs⟩ | ⟨r, -, hs⟩⟩
  · have hrec : Keeps part d b ((b.record e).record e') := .of_devices rfl
    rw [hs]
    exact hrec.countDevice hpart k Counters.sendFailed
  · rw [hs]
    exact (pass e).countDevice hpart k (·.sent f.length)
  · rw [hs]
    exact (pass e).countDevice hpart k Counters.sendDropped

end Counting

end Bench

open Bench

variable {α : Type} {part : Device → α} {d : Handle Device}
  (hpart : ∀ (y : Device) c, part { y with counters := c } = part y)
include hpart

/-- **No call changes a device** but for its counters, and one for its address. -/
theorem Op.keeps (b : Bench) (q : Op) (hq : (∀ a, q ≠ .setAddress d a) ∨
      ∀ (y : Device) a, part { y with address := a } = part y) :
    Keeps part d b (q.run b).1 := by
  cases q with
  | call op =>
    rw [Op.run, BenchOp.run_fst]
    exact keeps_benchStep b op
  | clearHookIf n s => exact keeps_clearHookIf b n s
  | openDevice k => exact (atCard_openDevice rfl).keeps
  | closeDevice k => exact keeps_closeDevice hpart b k
  | setAddress k a =>
    refine keeps_setAddress (hq.imp_left fun h hk => ?_) b a
    exact h a (by rw [hk])
  | send k f => exact keeps_send hpart b k f
  | detachPeer p => exact keeps_clearHookIf b _ _
  | peerTransmit p f => exact keeps_peerTransmit b p f
  | newNic tx rx =>
    refine keeps_made fun n b' h => ?_
    cases hx : Nic.ofSizes tx rx with
    | error f =>
      rw [hx] at h
      cases h
    | ok y =>
      rw [hx] at h
      cases h
      exact .of_devices rfl
  | newDevice x n s =>
    refine keeps_made fun k b' h => ?_
    obtain ⟨c, -, hy, -⟩ := add_of_newDevice h
    exact .of_add hy
  | buildDevice x s =>
    refine keeps_made fun k b' h => ?_
    obtain ⟨-, n, c, -, -, -, hy⟩ := adds_of_buildDevice h
    exact .of_add hy
  | _ => exact .of_devices rfl

/-- No transfer changes a device, unless what is done with the frames does. -/
theorem Transfer.keeps {σ : Type} {sink : Sink σ} (hs : ∀ f y, Keeps part d y.1 (sink f y).1)
    (t : Transfer) (x : Bench × σ) : Keeps part d x.1 (t.run sink x).1.1 := by
  cases t with
  | card n budget => exact keeps_pump hs n .transmit budget x
  | peer p budget =>
    have hwire : ∀ f y, Keeps part d y.1 (collecting p sink f y).1 := fun f y =>
      (Keeps.of_devices rfl).trans (hs f (y.1.countPeer p (·.received f.length), y.2))
    have hd := keeps_pump hwire (x.1.peer p).nic .transmit budget x
    rw [Transfer.run, pollPeer, drain]
    dsimp only
    split
    · exact hd.trans (.of_devices rfl)
    · exact hd
  | context c n budget => exact keeps_poll hs c n budget x
  | device k =>
    have hstack : ∀ f y, Keeps part d y.1 (counting k sink f y).1 := fun f y => by
      have hr : Keeps part d y.1
          (y.1.recordDevice k (.frameSeen Direction.receive.word f)) := .of_devices rfl
      exact (hr.countDevice hpart k (·.received f.length)).trans (hs f (_, y.2))
    have hp : Keeps part d x.1 (x.1.recordDevice k .polled) := .of_devices rfl
    exact hp.trans (keeps_poll hstack _ _ _ (x.1.recordDevice k .polled, x.2))

/-- **No program changes a device** but for its counters and its address. -/
theorem Program.keeps_run (haddress : ∀ (y : Device) a, part { y with address := a } = part y)
    {β : Type} (P : Program β) (b : Bench) : Keeps part d b (P.run b).1 := by
  induction P generalizing b with
  | done a => exact .refl part d b
  | op q next ih => exact (q.keeps hpart b (Or.inr haddress)).trans (ih _ _)
  | transfer t each start next ihe ihn =>
    have ht := t.keeps hpart (fun f y => ihe f y.2 y.1) (b, start)
    exact ht.trans (ihn _ _ _)

end SoftNic
