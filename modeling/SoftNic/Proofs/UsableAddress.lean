import Mathlib.Data.List.Induction
import SoftNic.Proofs.KeptParts

/-! # The address of a device

A device asks whether an address is usable when it is given one (`Bench.setAddress`), and
at no other time: the settings that it is made from are checked for sizes, weight and
name, and any address that can be spelled passes (`validate_address`).

So the address of a device is the last usable one that it was given, and until it has been
given one, the address of its settings, usable or not (`address_eq_last`).  No program
that gives the device no address changes that (`Program.sparesAddress_run`).  Whether the
address is usable is thus decided by the settings until the first call that succeeds, and
never in doubt afterwards.
-/
namespace SoftNic

open Bench

/-- Limits are not about the address. -/
theorem Settings.validate_address (x : Settings) (a : MacAddress) :
    { x with address := a }.validate = x.validate :=
  rfl

/-- Settings that were read from a document keep the limits. -/
theorem Settings.validate_of_ofText {text : String} {x : Settings}
    (h : (ofText text).2 = .ok x) : x.validate = .ok () := by
  unfold ofText at h
  split at h
  · cases h
  · next root _ =>
    rw [Document.refuse_eq_ok_iff] at h
    unfold ofTree at h
    split at h
    · obtain rfl := Except.ok.inj h
      rfl
    · cases h
    · next entries _ =>
      dsimp only at h
      cases hr : (absorb standard entries).2 with
      | error e =>
        rw [hr] at h
        cases h
      | ok y =>
        rw [hr] at h
        obtain ⟨hv, rfl⟩ := checked_eq_ok_iff.mp h
        exact hv

/-- A program gives a device no address. -/
def Program.SparesAddress {α : Type} (d : Handle Device) : Program α → Prop
  | done _ => True
  | op q next => (∀ a, q ≠ .setAddress d a) ∧ ∀ a, (next a).SparesAddress d
  | transfer _ each _ next =>
    (∀ f x, (each f x).SparesAddress d) ∧ ∀ a x, (next a x).SparesAddress d

namespace Bench

variable {d k : Handle Device} {n : Handle Nic} {s : Handle Signal} {x : Settings}
  {a : MacAddress} {l : List MacAddress} {b b' b'' b₀ b₁ : Bench}

/-! ## Devices that keep their address -/

/-- A device that was there is still there, under the same address. -/
def KeepsAddress (d : Handle Device) (b b' : Bench) : Prop :=
  b.devices.Has d → b'.devices.Has d ∧ (b'.device d).address = (b.device d).address

/-- A refused address changes nothing, and an accepted one is the device's from then on. -/
theorem setAddress_of_not_usable (h : a.isUsable = false) (b : Bench) (k : Handle Device) :
    b.setAddress k a = (b, .error .addressNotAvailable) := by
  rw [setAddress, h]
  rfl

theorem setAddress_of_usable (h : a.isUsable = true) (b : Bench) (k : Handle Device) :
    (b.setAddress k a).2 = .ok () ∧ (b.setAddress k a).1.devices.next = b.devices.next ∧
      ((b.setAddress k a).1.device k).address = a := by
  rw [setAddress, if_pos h]
  exact ⟨rfl, rfl, congrArg Device.address (b.devices.get_modify_self k _)⟩

end Bench

/-! ## Programs -/

/-- A program that gives a device no address leaves it the one it has. -/
theorem Program.sparesAddress_run {α : Type} {d : Handle Device} (P : Program α)
    (hP : P.SparesAddress d) (b : Bench) : KeepsAddress d b (P.run b).1 := by
  induction P generalizing b with
  | done a => exact Keeps.refl Device.address d b
  | op q next ih =>
    obtain ⟨hq, hnext⟩ := hP
    have hk : Keeps Device.address d b (q.run b).1 := q.keeps (fun _ _ => rfl) b (Or.inl hq)
    exact hk.trans (ih _ (hnext _) _)
  | transfer t each start next ihe ihn =>
    obtain ⟨heach, hnext⟩ := hP
    have ht := t.keeps (fun _ _ => rfl) (fun f y => ihe f y.2 (heach f y.2) y.1) (b, start)
    exact ht.trans (ihn _ _ (hnext _ _) _)

namespace Bench

variable {d : Handle Device} {x : Settings} {a : MacAddress} {l : List MacAddress}
  {b b' b₀ b₁ : Bench}

/-! ## What a device is asked to be -/

/-- A device is made from settings: for a card that is there, with a card of its own, or
as part of an endpoint. -/
inductive Makes (x : Settings) (b : Bench) (d : Handle Device) (b' : Bench) : Prop
  | driving (n : Handle Nic) (s : Handle Signal) (h : b.newDevice x n s = .ok (d, b'))
  | built (s : Handle Signal) (h : b.buildDevice x s = .ok (d, b'))
  | endpoint (n : Handle Nic) (e : Handle Endpoint) (hx : x.validate = .ok ())
    (h : b.addEndpoint x n = (e, b')) (hd : (b'.endpoint e).device = d)

theorem Makes.validate (h : Makes x b d b') : x.validate = .ok () := by
  cases h with
  | driving n s h =>
    unfold newDevice at h
    split at h
    · cases h
    · next hz => exact (Settings.checked_eq_ok_iff.mp hz).1
  | built s h =>
    unfold buildDevice at h
    split at h
    · cases h
    · next hz => exact (Settings.checked_eq_ok_iff.mp hz).1
  | endpoint n e hx _ _ => exact hx

/-- Settings that keep the limits make a device, and would do so with any address. -/
theorem exists_newDevice (hx : x.validate = .ok ()) (a : MacAddress) (b : Bench)
    (n : Handle Nic) (s : Handle Signal) :
    ∃ d b', b.newDevice { x with address := a } n s = .ok (d, b') := by
  have hc : { x with address := a }.checked = .ok { x with address := a } := by
    rw [Settings.checked_eq_ok_iff, Settings.validate_address]
    exact ⟨hx, rfl⟩
  rw [newDevice, hc]
  exact ⟨_, _, rfl⟩

/-- A run in which a device is given addresses, oldest first.  Between two of them, a
program does anything else. -/
inductive AddressRun (d : Handle Device) (b₀ : Bench) : List MacAddress → Bench → Prop
  | start : AddressRun d b₀ [] b₀
  | given {l : List MacAddress} {b : Bench} (h : AddressRun d b₀ l b) (a : MacAddress) :
    AddressRun d b₀ (l ++ [a]) (b.setAddress d a).1
  | other {l : List MacAddress} {b : Bench} (h : AddressRun d b₀ l b) {α : Type} (P : Program α)
    (hP : P.SparesAddress d) : AddressRun d b₀ l (P.run b).1

/-- A new device is what its settings say. -/
theorem Makes.device_eq (h : Makes x b d b') :
    b'.devices.Has d ∧ ∃ n c, b'.device d = ⟨x.name, x.address, n, c, x.weight, {}⟩ := by
  have new : ∀ n c, b.devices.add ⟨x.name, x.address, n, c, x.weight, {}⟩ = (d, b'.devices) →
      b'.devices.Has d ∧ ∃ n c, b'.device d = ⟨x.name, x.address, n, c, x.weight, {}⟩ :=
    fun n c hadd => ⟨Store.has_of_add hadd, n, c, Store.get_of_add hadd⟩
  cases h with
  | driving n s h =>
    obtain ⟨c, -, hadd, -⟩ := add_of_newDevice h
    exact new n c hadd
  | built s h =>
    obtain ⟨-, n, c, -, -, -, hadd⟩ := adds_of_buildDevice h
    exact new n c hadd
  | endpoint n e _ h hd =>
    obtain ⟨k, c, s, hj⟩ := joins_of_addEndpoint h
    obtain rfl : k = d := hj.serving.device_eq.symm.trans hd
    exact new n c hj.devices

/-- It has the address of its settings, whatever that is. -/
theorem Makes.address (h : Makes x b d b') :
    b'.devices.Has d ∧ (b'.device d).address = x.address := by
  obtain ⟨hd, n, c, hnew⟩ := h.device_eq
  exact ⟨hd, congrArg Device.address hnew⟩

/-- The last usable address of a list, or another if there is none. -/
def lastUsable (l : List MacAddress) (a : MacAddress) : MacAddress :=
  (l.filter (·.isUsable)).getLastD a

theorem lastUsable_concat (l : List MacAddress) (a a' : MacAddress) :
    lastUsable (l ++ [a']) a = if a'.isUsable then a' else lastUsable l a := by
  unfold lastUsable
  rw [List.filter_append]
  split
  · next h => rw [List.filter_cons_of_pos h, List.filter_nil, List.getLastD_concat]
  · next h => rw [List.filter_cons_of_neg h, List.filter_nil, List.append_nil]

theorem isUsable_lastUsable_iff :
    (lastUsable l a).isUsable = true ↔ a.isUsable = true ∨ ∃ a' ∈ l, a'.isUsable = true := by
  induction l using List.reverseRecOn with
  | nil => simp [lastUsable]
  | append_singleton l a' ih =>
    rw [lastUsable_concat]
    split
    · next h => simp [h]
    · next h => simp [ih, h]

theorem AddressRun.address (hr : AddressRun d b₀ l b) (hd : b₀.devices.Has d) :
    b.devices.Has d ∧ (b.device d).address = lastUsable l (b₀.device d).address := by
  induction hr with
  | start => exact ⟨hd, rfl⟩
  | given _ a ih =>
    obtain ⟨hhas, ha⟩ := ih
    rw [lastUsable_concat]
    cases hu : a.isUsable with
    | true =>
      obtain ⟨-, hnext, hset⟩ := setAddress_of_usable hu _ d
      exact ⟨by rwa [Store.Has, hnext], hset⟩
    | false =>
      rw [setAddress_of_not_usable hu]
      exact ⟨hhas, ha⟩
  | other _ P hP ih =>
    obtain ⟨hhas, ha⟩ := ih
    obtain ⟨hhas', ha'⟩ := P.sparesAddress_run hP _ hhas
    exact ⟨hhas', ha'.trans ha⟩

/-- **The address of a device.**  However it was made and whatever happened since, it is
the last usable address that the device was given, or else that of its settings; so it is
usable if and only if the settings' is, or a usable one was given.  A usable address is
always accepted, and one that is not is refused and changes nothing; but the same settings
make a device with any address. -/
theorem address_eq_last (hm : Makes x b₀ d b₁) (hr : AddressRun d b₁ l b) :
    (b.device d).address = lastUsable l x.address ∧
    ((b.device d).address.isUsable = true ↔
      x.address.isUsable = true ∨ ∃ a ∈ l, a.isUsable = true) ∧
    (∀ a, (a.isUsable = true → (b.setAddress d a).2 = .ok () ∧
        ((b.setAddress d a).1.device d).address = a) ∧
      (a.isUsable = false → b.setAddress d a = (b, .error .addressNotAvailable))) ∧
    ∀ a n s, ∃ d' b', b.newDevice { x with address := a } n s = .ok (d', b') ∧
      (b'.device d').address = a := by
  obtain ⟨hhas, hx⟩ := hm.address
  obtain ⟨-, ha⟩ := hr.address hhas
  rw [hx] at ha
  refine ⟨ha, ?_, fun a => ⟨fun hu => ?_, fun hu => setAddress_of_not_usable hu b d⟩,
    fun a n s => ?_⟩
  · rw [ha]
    exact isUsable_lastUsable_iff
  · obtain ⟨hok, -, hset⟩ := setAddress_of_usable hu b d
    exact ⟨hok, hset⟩
  · obtain ⟨d', b', hnew⟩ := exists_newDevice hm.validate a b n s
    exact ⟨d', b', hnew, (Makes.driving n s hnew).address.2⟩

/-- A multicast address. -/
def groupAddress : MacAddress := ⟨[0x01, 0x00, 0x5E, 0x00, 0x00, 0x01], rfl⟩

/-- A device is made from settings with a multicast address.  It refuses to be given that
address, and has it all the same until it is given one that is usable. -/
theorem address_eq_last_group :
    let x := { Settings.standard with address := groupAddress }
    ∃ d b, Makes x default d b ∧ AddressRun d b [groupAddress] b ∧
      (b.device d).address.isUsable = false ∧
      b.setAddress d groupAddress = (b, .error .addressNotAvailable) ∧
      ((b.setAddress d Settings.standard.address).1.device d).address.isUsable = true := by
  intro x
  obtain ⟨d, b, hb⟩ : ∃ d b, (default : Bench).buildDevice x ⟨0⟩ = .ok (d, b) := ⟨_, _, rfl⟩
  have hm : Makes x default d b := .built ⟨0⟩ hb
  have hgroup : groupAddress.isUsable = false := by decide
  have hr : AddressRun d b [groupAddress] b := by
    have hg : AddressRun d b [groupAddress] (b.setAddress d groupAddress).1 :=
      AddressRun.start.given groupAddress
    rwa [setAddress_of_not_usable hgroup] at hg
  obtain ⟨ha, -, hset, -⟩ := address_eq_last hm hr
  refine ⟨d, b, hm, hr, ?_, (hset groupAddress).2 hgroup, ?_⟩
  · rw [ha]
    decide
  · rw [((hset Settings.standard.address).1 (by decide)).2]
    decide

/-- Such settings can be read from a document, and a device is made from them. -/
theorem device_with_group_address :
    ∃ x d b, (Settings.ofText "[vnic]\nmac = \"01:00:5e:00:00:01\"\n").2 = .ok x ∧
      Makes x default d b ∧ (b.device d).address = groupAddress ∧
      (b.device d).address.isUsable = false := by
  let x := { Settings.standard with address := groupAddress }
  have hx : (Settings.ofText "[vnic]\nmac = \"01:00:5e:00:00:01\"\n").2 = .ok x := rfl
  obtain ⟨d, b, hb⟩ :=
    exists_newDevice (Settings.validate_of_ofText hx) groupAddress default ⟨0⟩ ⟨0⟩
  have hm : Makes x default d b := .driving ⟨0⟩ ⟨0⟩ hb
  have ha := hm.address.2
  refine ⟨x, d, b, hx, hm, ha, ?_⟩
  rw [ha]
  decide

end Bench
end SoftNic
