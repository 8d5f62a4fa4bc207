import SoftNic.Proofs.Budgets
import SoftNic.Proofs.SettingsEntries
import SoftNic.Proofs.UsableAddress

/-! # The limits of an interface

There are four ways to make a part of an interface from settings: a card (`buildNic`), a
device with a card of its own (`buildDevice`), a device for a card that is there
(`newDevice`), and an endpoint for a card that is there (`newEndpoint`).  Each of them checks
the limits first, and settings that come from a document have been checked before
(`Settings.validate_of_ofText`).  So settings that break a limit make nothing, and the
refusal is the same everywhere (`refused_of_firstBroken`).

What is made from settings within the limits keeps them for good: no call changes the name
or the weight of a device (`Program.keeps_run`), and a ring has at least two slots because
there is no other.  A weight of one is enough for a pass to hand over a frame or to see the
ring empty (`pass_of_weight`), so that passes come to an end.

The checks do not bound the sizes of the rings from above: a size that no array can have is
found out when the rings are made (`Nic.ofSizes_cases`).  Nor do they look at the length of a
name, which is a matter of its type: it has sixteen bytes at most.
**`interface_limits` puts this together.**
-/
namespace SoftNic

/-! ## Rings -/

/-- A ring that is large enough can be too large. -/
theorem Ring.ofCapacity_of_limit_lt {α : Type} {n : Nat} (hn : 2 ≤ n) (hl : Row.limit < n) :
    (ofCapacity n : Except Fault (Ring α)) = .error .ringTooLarge := by
  have hrow : (Row.ofCapacity n : Except Fault (Row α)) = .error .ringTooLarge := by
    rw [Row.ofCapacity, if_neg (Nat.not_lt.mpr hn), if_pos hl]
  unfold ofCapacity
  split
  · next f h => rw [← Except.error.inj (hrow.symm.trans h)]
  · next row h => cases hrow.symm.trans h

/-- Rings of at least two slots can be had in any size that an array can have. -/
theorem Nic.ofSizes_cases {tx rx : Nat} (ht : 2 ≤ tx) (hr : 2 ≤ rx) :
    (tx ≤ Row.limit ∧ rx ≤ Row.limit ∧
      ∃ y, ofSizes tx rx = .ok y ∧ y.tx.capacity = tx ∧ y.rx.capacity = rx) ∨
    (Row.limit < tx ∨ Row.limit < rx) ∧ ofSizes tx rx = .error .ringTooLarge := by
  by_cases hlt : tx ≤ Row.limit
  · have htx : Ring.ofCapacity tx = .ok (Ring.vacant tx ht hlt : Ring Frame) :=
      Ring.ofCapacity_eq_ok_iff.mpr ⟨ht, hlt, rfl⟩
    by_cases hlr : rx ≤ Row.limit
    · have hrx : Ring.ofCapacity rx = .ok (Ring.vacant rx hr hlr : Ring Frame) :=
        Ring.ofCapacity_eq_ok_iff.mpr ⟨hr, hlr, rfl⟩
      exact Or.inl ⟨hlt, hlr, _, ofSizes_eq_ok_iff.mpr ⟨_, _, htx, hrx, rfl⟩,
        Ring.capacity_vacant tx ht hlt, Ring.capacity_vacant rx hr hlr⟩
    · have hlr := Nat.lt_of_not_le hlr
      refine Or.inr ⟨Or.inr hlr, ?_⟩
      rw [ofSizes, htx]
      simp only [Ring.ofCapacity_of_limit_lt hr hlr]
  · have hlt := Nat.lt_of_not_le hlt
    exact Or.inr ⟨Or.inl hlt, by rw [ofSizes, Ring.ofCapacity_of_limit_lt ht hlt]⟩

/-- The rings of a card have the sizes that settings say. -/
structure Nic.Sized (x : Settings) (y : Nic) : Prop where
  tx : y.tx.capacity = x.txRing
  rx : y.rx.capacity = x.rxRing

/-! ## Settings -/

namespace Settings

variable {x : Settings} {e : ConfigError}

theorem WithinLimits.checked_eq (h : x.WithinLimits) : x.checked = .ok x :=
  checked_eq_ok_iff.mpr ⟨h.validate_eq, rfl⟩

theorem FirstBroken.checked_eq (h : FirstBroken x e) : x.checked = .error e := by
  rw [checked, h.validate_eq]
  rfl

/-- A broken limit is an invalid value. -/
theorem FirstBroken.exists_defect (h : FirstBroken x e) : ∃ why, e = .invalidValue why := by
  cases h <;> exact ⟨_, rfl⟩

end Settings

namespace Bench

variable {x : Settings} {b b' : Bench} {d : Handle Device} {n : Handle Nic} {s : Handle Signal}
  {f : ConfigFailure} {e : ConfigError}

/-! ## Making parts -/

theorem buildNic_of_error (h : b.buildNic x = .error f) (s : Handle Signal) :
    b.buildDevice x s = .error f := by
  unfold buildNic at h
  unfold buildDevice
  split at h
  · exact congrArg Except.error (Except.error.inj h)
  · split at h
    · exact congrArg Except.error (Except.error.inj h)
    · cases h

/-- A device with a card of its own is a device for a card that was built. -/
theorem buildNic_of_ok (h : b.buildNic x = .ok (n, b')) (s : Handle Signal) :
    ∃ d b'', b.buildDevice x s = .ok (d, b'') ∧ b'.newDevice x n s = .ok (d, b'') := by
  unfold buildNic at h
  unfold buildDevice
  split at h
  · cases h
  · next y hc =>
    obtain ⟨-, rfl⟩ := Settings.checked_eq_ok_iff.mp hc
    split at h
    · cases h
    · next z hn =>
      cases h
      simp only [newDevice, hc]
      exact ⟨_, _, rfl, rfl⟩

/-- **Settings within the limits make a card**, unless no array can have the size of a
ring. -/
theorem buildNic_cases (hx : x.WithinLimits) (b : Bench) :
    (x.txRing ≤ Row.limit ∧ x.rxRing ≤ Row.limit ∧
      ∃ n b', b.buildNic x = .ok (n, b') ∧ (b'.nic n).Sized x) ∨
    (Row.limit < x.txRing ∨ Row.limit < x.rxRing) ∧
      b.buildNic x = .error (.fault .ringTooLarge) := by
  rcases Nic.ofSizes_cases hx.txRing hx.rxRing with ⟨ht, hr, y, hy, htx, hrx⟩ | ⟨hl, hy⟩
  · have hb : b.buildNic x = .ok (b.addNic y) := by simp only [buildNic, hx.checked_eq, hy]
    refine Or.inl ⟨ht, hr, _, _, hb, ?_⟩
    rw [nic_of_addNic (rfl : b.addNic y = _)]
    exact ⟨htx, hrx⟩
  · exact Or.inr ⟨hl, by simp only [buildNic, hx.checked_eq, hy]⟩

/-- A device for a card drives that card, as it is. -/
theorem nic_of_newDevice (h : b.newDevice x n s = .ok (d, b')) :
    b'.nic (b'.device d).nic = b.nic n := by
  obtain ⟨c, -, hd, hn⟩ := add_of_newDevice h
  rw [device, Store.get_of_add hd, nic, hn]
  rfl

/-- **Settings that break a limit make nothing.** -/
theorem refused_of_firstBroken (h : Settings.FirstBroken x e) (b : Bench) :
    b.buildNic x = .error (.refused e) ∧ (∀ s, b.buildDevice x s = .error (.refused e)) ∧
      (∀ n s, b.newDevice x n s = .error e) ∧ ∀ n, b.newEndpoint x n = .error e := by
  have hnic : b.buildNic x = .error (.refused e) := by rw [buildNic, h.checked_eq]
  refine ⟨hnic, buildNic_of_error hnic, fun n s => ?_, fun n => ?_⟩
  · rw [newDevice, h.checked_eq]
  · rw [newEndpoint, h.checked_eq]

theorem makes_of_newEndpoint {k : Handle Endpoint} (h : b.newEndpoint x n = .ok (k, b')) :
    Makes x b (b'.endpoint k).device b' := by
  unfold newEndpoint at h
  split at h
  · cases h
  · next y hc =>
    obtain ⟨hx, rfl⟩ := Settings.checked_eq_ok_iff.mp hc
    exact .endpoint n k hx (Except.ok.inj h) rfl

/-! ## Passes -/

section Passes

variable {γ : Type} {g : γ}

/-- A transfer hands over a frame if there is one and it may. -/
theorem one_le_pump {i : Direction} {budget : Nat} {s : Sink γ} (hw : 1 ≤ budget)
    (hd : (b.nic n).gate.phase.canDrain = true) (hq : ((b.nic n).ring i).toList ≠ []) :
    1 ≤ (pump (·.take n i) s budget (b, g)).2 := by
  obtain ⟨budget, rfl⟩ := Nat.exists_eq_add_of_le' hw
  rw [pump]
  rcases b.take_cases n i with ⟨hnil, -⟩ | ⟨-, f, r, -, hf, -⟩
  · exact absurd (hnil hd) hq
  · split
    · next hnone =>
      rw [hnone] at hf
      cases hf
    · exact Nat.le_add_left 1 _

/-- **A pass of a device hands over a frame or sees the ring empty**; and if the pass was
asked for and a frame waits that may be taken, it hands over a frame. -/
theorem pass_of_weight (hw : 1 ≤ (b.device d).weight) (sink : Sink γ) (g : γ) :
    (∀ pass, (pollDevice d sink (b, g)).2 = .ok pass → pass.complete = true ∨ 1 ≤ pass.handled) ∧
    ((b.context (b.device d).context).phase = .scheduled →
      (b.nic (b.device d).nic).gate.phase.canDrain = true →
      (b.nic (b.device d).nic).rx.toList ≠ [] →
      ∃ pass, (pollDevice d sink (b, g)).2 = .ok pass ∧ 1 ≤ pass.handled) := by
  constructor
  · intro pass hpass
    unfold pollDevice poll at hpass
    dsimp only at hpass
    split at hpass
    · obtain rfl := Except.ok.inj hpass
      simp only [decide_eq_true_eq]
      omega
    · obtain rfl := Except.ok.inj hpass
      exact Or.inl rfl
    · cases hpass
  · intro hphase hdrain hwaits
    have hpump := one_le_pump (b := (b.recordDevice d .polled).startPass (b.device d).context)
      (i := .receive) (g := g) (s := counting d sink) hw hdrain hwaits
    have hpoll := poll_eq_pump (b := b.recordDevice d .polled) hphase (b.device d).nic
      (b.device d).weight (counting d sink) g
    exact ⟨_, congrArg Prod.snd hpoll, hpump⟩

end Passes

/-! ## Admitted devices -/

/-- A device has the name and the weight of its settings, and it keeps the limits. -/
structure Admitted (x : Settings) (d : Handle Device) (b : Bench) : Prop where
  name : (b.device d).name = x.name
  weight : (b.device d).weight = x.weight
  name_ne : (b.device d).name.text ≠ ""
  name_le : (b.device d).name.text.utf8ByteSize ≤ 16
  one_le_weight : 1 ≤ (b.device d).weight
  rings : ∀ i, 2 ≤ ((b.nic (b.device d).nic).ring i).capacity
  /-- A pass hands over a frame, or it has seen the ring empty. -/
  progress : ∀ {γ : Type} (sink : Sink γ) (g : γ) (pass : Pass),
    (pollDevice d sink (b, g)).2 = .ok pass → pass.complete = true ∨ 1 ≤ pass.handled
  /-- A pass that was asked for hands over a frame if one waits that may be taken. -/
  serves : (b.context (b.device d).context).phase = .scheduled →
    (b.nic (b.device d).nic).gate.phase.canDrain = true →
    (b.nic (b.device d).nic).rx.toList ≠ [] → ∀ {γ : Type} (sink : Sink γ) (g : γ),
    ∃ pass, (pollDevice d sink (b, g)).2 = .ok pass ∧ 1 ≤ pass.handled

/-- **A device keeps the limits**, whatever is done after it was made. -/
theorem Makes.admitted (h : Makes x b d b') {α : Type} (P : Program α) :
    Admitted x d (P.run b').1 := by
  have hx := Settings.validate_eq_ok_iff.mp h.validate
  obtain ⟨hd, n, c, hnew⟩ := h.device_eq
  have hkept : Keeps (fun y => (y.name, y.weight)) d b' (P.run b').1 :=
    P.keeps_run (fun _ _ => rfl) (fun _ _ => rfl) b'
  obtain ⟨hname, hweight⟩ := Prod.mk.inj (hkept hd).2
  rw [hnew] at hname hweight
  have hw : 1 ≤ ((P.run b').1.device d).weight := hweight.symm ▸ hx.weight
  exact {
    name := hname
    weight := hweight
    name_ne := hname.symm ▸ hx.name
    name_le := InterfaceName.utf8ByteSize_le _
    one_le_weight := hw
    rings := fun _ => Ring.two_le_capacity _
    progress := fun sink g => (pass_of_weight hw sink g).1
    serves := fun hp hc hq _ sink g => (pass_of_weight hw sink g).2 hp hc hq }

/-- **The limits of an interface.**  Settings from a document are within the limits.  Settings
that are not are refused by all that could make something of them, as an invalid value.  From
settings that are, a card and a device with a card of its own can be made whose rings have
the sizes of the settings, as long as an array can have these sizes; a larger ring is a fault
of its own.  Devices and endpoints for a card that is there can always be made.  Every device
that was made has the name and the weight of its settings and keeps the limits, whatever
program is run.  Of the name that is all: each one that is not empty will do, up to sixteen
bytes. -/
theorem interface_limits (x : Settings) :
    (∀ text, (Settings.ofText text).2 = .ok x → x.WithinLimits) ∧
    (¬ x.WithinLimits → ∃ why, ∀ b : Bench,
      b.buildNic x = .error (.refused (.invalidValue why)) ∧
      (∀ s, b.buildDevice x s = .error (.refused (.invalidValue why))) ∧
      (∀ n s, b.newDevice x n s = .error (.invalidValue why)) ∧
      ∀ n, b.newEndpoint x n = .error (.invalidValue why)) ∧
    (x.WithinLimits → ∀ b : Bench,
      (x.txRing ≤ Row.limit ∧ x.rxRing ≤ Row.limit →
        (∃ n b', b.buildNic x = .ok (n, b') ∧ (b'.nic n).Sized x) ∧
        ∀ s, ∃ d b', b.buildDevice x s = .ok (d, b') ∧ (b'.nic (b'.device d).nic).Sized x) ∧
      (Row.limit < x.txRing ∨ Row.limit < x.rxRing →
        b.buildNic x = .error (.fault .ringTooLarge) ∧
        ∀ s, b.buildDevice x s = .error (.fault .ringTooLarge)) ∧
      (∀ n s, ∃ d b', b.newDevice x n s = .ok (d, b')) ∧
      (∀ n, ∃ k b', b.newEndpoint x n = .ok (k, b') ∧ Makes x b (b'.endpoint k).device b') ∧
      ∀ d b', Makes x b d b' → ∀ {α : Type} (P : Program α), Admitted x d (P.run b').1) ∧
    (x.WithinLimits → ∀ name : InterfaceName, name.text ≠ "" → { x with name }.WithinLimits) := by
  refine ⟨fun text h => ?_, fun hx => ?_, fun hx b => ⟨?_, ?_, ?_, ?_, ?_⟩, fun hx name hn => ?_⟩
  · exact Settings.validate_eq_ok_iff.mp (Settings.validate_of_ofText h)
  · obtain ⟨e, he⟩ := x.withinLimits_or_firstBroken.resolve_left hx
    obtain ⟨why, rfl⟩ := he.exists_defect
    exact ⟨why, refused_of_firstBroken he⟩
  · rintro ⟨ht, hr⟩
    rcases buildNic_cases hx b with ⟨-, -, n, b', hb, hs⟩ | ⟨hl, -⟩
    · refine ⟨⟨n, b', hb, hs⟩, fun s => ?_⟩
      obtain ⟨d, b'', hd, hnew⟩ := buildNic_of_ok hb s
      exact ⟨d, b'', hd, (nic_of_newDevice hnew).symm ▸ hs⟩
    · omega
  · intro hl
    rcases buildNic_cases hx b with ⟨ht, hr, -⟩ | ⟨-, hb⟩
    · omega
    · exact ⟨hb, buildNic_of_error hb⟩
  · intro n s
    rw [newDevice, hx.checked_eq]
    exact ⟨_, _, rfl⟩
  · intro n
    have hk : b.newEndpoint x n = .ok (b.addEndpoint x n) := by rw [newEndpoint, hx.checked_eq]
    exact ⟨_, _, hk, makes_of_newEndpoint hk⟩
  · exact fun d b' h _ P => h.admitted P
  · exact ⟨hx.txRing, hx.rxRing, hx.weight, hn⟩

/-- The standard settings make a device that keeps the limits, and with a ring of one slot
they are refused everywhere. -/
theorem interface_limits_standard :
    (∀ (b : Bench) s, ∃ d b', b.buildDevice Settings.standard s = .ok (d, b') ∧
      (b'.nic (b'.device d).nic).Sized Settings.standard ∧
      ∀ P : Program Unit, Admitted Settings.standard d (P.run b').1) ∧
    ∃ why, ∀ b : Bench,
      b.buildNic { Settings.standard with rxRing := 1 } = .error (.refused (.invalidValue why)) ∧
      ∀ n, b.newEndpoint { Settings.standard with rxRing := 1 } n =
        .error (.invalidValue why) := by
  constructor
  · intro b s
    have hx : Settings.standard.WithinLimits := ⟨by decide, by decide, by decide, by decide⟩
    obtain ⟨hmade, -, -, -, hkept⟩ := (interface_limits _).2.2.1 hx b
    obtain ⟨d, b', hd, hs⟩ := (hmade ⟨by decide, by decide⟩).2 s
    exact ⟨d, b', hd, hs, fun P => hkept d b' (.built s hd) P⟩
  · have hx : ¬ { Settings.standard with rxRing := 1 }.WithinLimits := fun h =>
      absurd h.rxRing (by decide)
    obtain ⟨why, hwhy⟩ := (interface_limits _).2.1 hx
    exact ⟨why, fun b => ⟨(hwhy b).1, (hwhy b).2.2.2⟩⟩

/-- A document can give a device a name of sixteen bytes. -/
theorem device_with_long_name :
    (∃ x d b, (Settings.ofText "[vnic]\nname = \"0123456789abcdef\"\n").2 = .ok x ∧
      Makes x default d b ∧ (b.device d).name.text.utf8ByteSize = 16) ∧
    ¬ ∀ x d b, Makes x default d b → (b.device d).name.text.utf8ByteSize ≤ 15 := by
  let x := { Settings.standard with name := ⟨"0123456789abcdef", by decide⟩ }
  have hx : (Settings.ofText "[vnic]\nname = \"0123456789abcdef\"\n").2 = .ok x := rfl
  obtain ⟨d, b, hb⟩ :=
    exists_newDevice (Settings.validate_of_ofText hx) x.address default ⟨0⟩ ⟨0⟩
  have hm : Makes x default d b := .driving ⟨0⟩ ⟨0⟩ hb
  have hname : (b.device d).name.text.utf8ByteSize = 16 := by
    obtain ⟨-, n, c, hnew⟩ := hm.device_eq
    rw [hnew]
    rfl
  refine ⟨⟨x, d, b, hx, hm, hname⟩, fun h => ?_⟩
  have hle := h x d b hm
  omega

end Bench
end SoftNic
