import SoftNic.Proofs.Ownership

/-! # Whose hook it is

A card has room for one hook.  Peers come and go in any order, each of them installing a
signal of its own when it is attached, and other signals are installed and removed by
hand.  This module reads off the history of a card whose hook is installed: it is the one
that was installed last, if nothing has ended its time since (`Standing`), and otherwise
there is none.  Nothing that ends the time of another hook matters.

A peer keeps its signal to itself, so nobody else installs it (`Bench.Allows`).  That is
what lets a detached peer look at nothing but the hook: if its own signal is there, it is
because the peer itself was the last to install one (`Hooked.owner_eq`).
-/
namespace SoftNic

/-- What is done to the hooks of cards, and beside them. -/
inductive HookOp
  | newSignal (x : Signal)
  | attach (m : Handle Nic)
  | drop (p : Handle Peer)
  | set (m : Handle Nic) (s : Handle Signal)
  | clear (m : Handle Nic)
  | clearIf (m : Handle Nic) (s : Handle Signal)
  | card (m : Handle Nic) (op : CardOp)
  deriving DecidableEq

/-- What happens to the hook of one card. -/
inductive HookEvent
  /-- A signal was installed, by a peer that was attached or by hand. -/
  | installed (s : Handle Signal) (owner : Option (Handle Peer))
  | cleared
  | clearedIf (s : Handle Signal)
  /-- A peer was detached, from whatever card. -/
  | dropped (p : Handle Peer)
  deriving DecidableEq

namespace HookEvent

/-- Whether an event ends the time of a hook that had a given owner. -/
def Ends (s : Handle Signal) (owner : Option (Handle Peer)) : HookEvent → Prop
  | installed _ _ => True
  | cleared => True
  | clearedIf t => t = s
  | dropped p => owner = some p

end HookEvent

/-- The signal was installed by that owner, and nothing has ended its time since. -/
def Standing (l : List HookEvent) (s : Handle Signal) (owner : Option (Handle Peer)) : Prop :=
  ∃ before after, l = before ++ .installed s owner :: after ∧ ∀ e ∈ after, ¬ e.Ends s owner

namespace Bench

variable {n m : Handle Nic} {p q : Handle Peer} {s t : Handle Signal} {b b' b₀ : Bench}
  {owner : Option (Handle Peer)} {l : List HookEvent} {e : HookEvent}

/-! ## Histories -/

/-- Do something to a hook, or beside it. -/
def hookStep (b : Bench) : HookOp → Bench
  | .newSignal x => (b.addSignal x).2
  | .attach m => (b.attachPeer m).2
  | .drop p => b.detachPeer p
  | .set m s => b.setHook m s
  | .clear m => b.clearHook m
  | .clearIf m s => b.clearHookIf m s
  | .card m op => cardStep m b op

/-- What that is for the hook of a card. -/
def hookEvent? (n : Handle Nic) (b : Bench) : HookOp → Option HookEvent
  | .attach m =>
    let (p, b') := b.attachPeer m
    if m = n then some (.installed (b'.peer p).signal (some p)) else none
  | .drop p => some (.dropped p)
  | .set m s => if m = n then some (.installed s none) else none
  | .clear m => if m = n then some .cleared else none
  | .clearIf m s => if m = n then some (.clearedIf s) else none
  | _ => none

/-- A signal that is on the bench and that no peer keeps to itself. -/
def Shared (b : Bench) (s : Handle Signal) : Prop :=
  b.signals.Has s ∧ ∀ q, b.peers.Has q → (b.peer q).signal ≠ s

/-- Only a peer that is there can be detached, and no peer's signal is installed by
hand. -/
def Allows (b : Bench) : HookOp → Prop
  | .drop p => b.peers.Has p
  | .set _ s => b.Shared s
  | _ => True

/-- A run, with the history of the hook of a card, oldest event first. -/
inductive HookRun (n : Handle Nic) (b₀ : Bench) : List HookEvent → Bench → Prop
  | start : HookRun n b₀ [] b₀
  | step {l : List HookEvent} {b : Bench} (h : HookRun n b₀ l b) (op : HookOp)
    (ha : b.Allows op) : HookRun n b₀ (l ++ (hookEvent? n b op).toList) (b.hookStep op)

/-- Nothing was attached to a card yet. -/
structure Unplugged (n : Handle Nic) (b : Bench) : Prop where
  hook : (b.nic n).hook = none
  peers : ∀ q, b.peers.Has q → (b.peer q).nic ≠ n ∧ b.signals.Has (b.peer q).signal

/-- What stands after one more event: what was installed by it, or what stood before and
was not ended. -/
theorem standing_concat : Standing (l ++ [e]) s owner ↔
    e = .installed s owner ∨ Standing l s owner ∧ ¬ e.Ends s owner := by
  constructor
  · rintro ⟨before, after, hl, hafter⟩
    rcases List.eq_nil_or_concat after with rfl | ⟨after, x, rfl⟩
    · obtain ⟨-, he⟩ := List.append_inj' hl rfl
      exact Or.inl (List.singleton_inj.mp he)
    · rw [List.concat_eq_append] at hl hafter
      have hsplit : l ++ [e] = (before ++ .installed s owner :: after) ++ [x] := by
        rw [hl, List.append_assoc, List.cons_append]
      obtain ⟨hl', hx⟩ := List.append_inj' hsplit rfl
      obtain rfl := List.singleton_inj.mp hx
      refine Or.inr ⟨⟨before, after, hl', ?_⟩, ?_⟩
      · intro y hy
        exact hafter y (List.mem_append_left _ hy)
      · exact hafter e (List.mem_append_right _ (List.mem_singleton_self e))
  · rintro (rfl | ⟨⟨before, after, rfl, hafter⟩, he⟩)
    · exact ⟨l, [], rfl, nofun⟩
    · refine ⟨before, after ++ [e], by simp, ?_⟩
      intro y hy
      rcases List.mem_append.mp hy with hy | hy
      · exact hafter y hy
      · rwa [List.mem_singleton.mp hy]

theorem not_standing_nil : ¬ Standing [] s owner := by
  rintro ⟨before, after, hl, -⟩
  cases before <;> cases hl

/-! ## The invariant -/

/-- Every peer has a signal that is on the bench, and no other peer has the signal of a
peer of the card. -/
structure OwnSignals (n : Handle Nic) (b : Bench) : Prop where
  known : ∀ q, b.peers.Has q → b.signals.Has (b.peer q).signal
  own : ∀ p q, b.peers.Has p → b.peers.Has q → (b.peer p).nic = n →
    (b.peer q).signal = (b.peer p).signal → q = p

/-- **The hook of a card agrees with its history.**  A peer that stands behind the hook has
it for its own signal, what stands without an owner is no peer's, and nobody stands behind
the signal of a peer that is detached. -/
structure Hooked (n : Handle Nic) (l : List HookEvent) (b : Bench) : Prop
    extends OwnSignals n b where
  hook_iff : ∀ s, (b.nic n).hook = some s ↔ ∃ owner, Standing l s owner
  owned : ∀ s p, Standing l s (some p) →
    b.peers.Has p ∧ (b.peer p).nic = n ∧ (b.peer p).signal = s
  shared : ∀ s, Standing l s none → b.Shared s
  gone : ∀ p, .dropped p ∈ l → b.peers.Has p ∧ ∀ owner, ¬ Standing l (b.peer p).signal owner

/-- Two benches have the same peers, and no signal is missing. -/
structure SamePeers (b b' : Bench) : Prop where
  signals : ∀ t, b.signals.Has t → b'.signals.Has t
  peers : b'.peers = b.peers

namespace SamePeers

theorem peer_eq (h : SamePeers b b') (q : Handle Peer) : b'.peer q = b.peer q := by
  rw [peer, h.peers, ← peer]

theorem shared (h : SamePeers b b') (hs : b.Shared s) : b'.Shared s := by
  refine ⟨h.signals s hs.1, fun q hq => ?_⟩
  rw [h.peers] at hq
  rw [h.peer_eq]
  exact hs.2 q hq

theorem ownSignals (h : SamePeers b b') (ho : OwnSignals n b) : OwnSignals n b' where
  known q hq := by
    rw [h.peers] at hq
    rw [h.peer_eq]
    exact h.signals _ (ho.known q hq)
  own p q hp hq hn he := by
    rw [h.peers] at hp hq
    rw [h.peer_eq] at hn
    rw [h.peer_eq, h.peer_eq] at he
    exact ho.own p q hp hq hn he

end SamePeers

namespace Hooked

/-- Whoever stands behind a peer's signal is the peer, and the card is the peer's. -/
theorem owner_eq (h : Hooked n l b) (hp : b.peers.Has p)
    (hs : Standing l (b.peer p).signal owner) : owner = some p ∧ (b.peer p).nic = n := by
  cases owner with
  | none => exact absurd rfl ((h.shared _ hs).2 p hp)
  | some q =>
    obtain ⟨hq, hn, hsig⟩ := h.owned _ q hs
    obtain rfl := h.own q p hq hp hn hsig.symm
    exact ⟨rfl, hn⟩

/-- Nothing happens to the hook. -/
theorem quiet (h : Hooked n l b) (hs : SamePeers b b')
    (hk : (b'.nic n).hook = (b.nic n).hook) : Hooked n l b' where
  toOwnSignals := hs.ownSignals h.toOwnSignals
  hook_iff s := by rw [hk, h.hook_iff]
  owned s p hst := by
    rw [hs.peers, hs.peer_eq]
    exact h.owned s p hst
  shared s hst := hs.shared (h.shared s hst)
  gone p hp := by
    rw [hs.peers, hs.peer_eq]
    exact h.gone p hp

/-- An event that brings no peer: what it installs is no peer's. -/
theorem event (h : Hooked n l b) (hs : SamePeers b b')
    (hin : ∀ s owner, e = .installed s owner → owner = none ∧ b.Shared s)
    (hout : ∀ p, e = .dropped p → b.peers.Has p)
    (hk : ∀ s, (b'.nic n).hook = some s ↔
      e = .installed s none ∨ ∃ owner, Standing l s owner ∧ ¬ e.Ends s owner) :
    Hooked n (l ++ [e]) b' where
  toOwnSignals := hs.ownSignals h.toOwnSignals
  hook_iff s := by
    rw [hk]
    simp only [standing_concat, exists_or]
    refine or_congr_left ⟨fun he => ⟨none, he⟩, ?_⟩
    rintro ⟨owner, he⟩
    rwa [(hin s owner he).1] at he
  owned s p hst := by
    rw [hs.peers, hs.peer_eq]
    rcases standing_concat.mp hst with he | ⟨hst, -⟩
    · cases (hin s _ he).1
    · exact h.owned s p hst
  shared s hst := by
    rcases standing_concat.mp hst with he | ⟨hst, -⟩
    · exact hs.shared (hin s _ he).2
    · exact hs.shared (h.shared s hst)
  gone p hp := by
    have hhas : b.peers.Has p := by
      rcases List.mem_append.mp hp with hp | hp
      · exact (h.gone p hp).1
      · exact hout p (List.mem_singleton.mp hp).symm
    rw [hs.peers, hs.peer_eq]
    refine ⟨hhas, fun owner hst => ?_⟩
    rcases standing_concat.mp hst with he | ⟨hst, hend⟩
    · exact (hin _ owner he).2.2 p hhas rfl
    · rcases List.mem_append.mp hp with hp | hp
      · exact (h.gone p hp).2 owner hst
      · -- The peer is just being detached: if its signal was the hook, it was its own.
        rw [← List.mem_singleton.mp hp] at hend
        exact hend (h.owner_eq hhas hst).1

end Hooked

theorem samePeers_modifyNic (b : Bench) (m : Handle Nic) (f : Nic → Nic) :
    SamePeers b (b.modifyNic m f) :=
  ⟨fun _ => id, rfl⟩

/-! ## Steps -/

theorem hook_setHook (b : Bench) (m n : Handle Nic) (s : Handle Signal) :
    ((b.setHook m s).nic n).hook = if m = n then some s else (b.nic n).hook := by
  split
  · next h =>
    subst h
    rw [nic_setHook]
  · next h => rw [setHook, nic_modifyNic_of_ne b (Ne.symm h)]

theorem hook_clearHook (b : Bench) (m n : Handle Nic) :
    ((b.clearHook m).nic n).hook = if m = n then none else (b.nic n).hook := by
  split
  · next h =>
    subst h
    rw [nic_clearHook]
  · next h => rw [clearHook, nic_modifyNic_of_ne b (Ne.symm h)]

theorem hook_clearHookIf (b : Bench) (m n : Handle Nic) (t : Handle Signal) :
    ((b.clearHookIf m t).nic n).hook =
      if m = n ∧ (b.nic n).hook = some t then none else (b.nic n).hook := by
  by_cases ht : (b.nic m).hook = some t
  · rw [clearHookIf, if_pos ht, hook_clearHook]
    by_cases hm : m = n
    · subst hm
      rw [if_pos rfl, if_pos ⟨rfl, ht⟩]
    · rw [if_neg hm, if_neg fun hx => hm hx.1]
  · rw [clearHookIf, if_neg ht, if_neg]
    rintro ⟨rfl, hx⟩
    exact ht hx

theorem samePeers_clearHookIf (b : Bench) (m : Handle Nic) (t : Handle Signal) :
    SamePeers b (b.clearHookIf m t) := by
  unfold clearHookIf
  split
  · exact samePeers_modifyNic b m _
  · exact ⟨fun _ => id, rfl⟩

namespace Hooked

theorem set (h : Hooked n l b) (ha : b.Shared s) :
    Hooked n (l ++ [.installed s none]) (b.setHook n s) := by
  refine h.event (samePeers_modifyNic b n _) ?_ nofun ?_
  · intro s' owner he
    obtain ⟨rfl, rfl⟩ := HookEvent.installed.inj he
    exact ⟨rfl, ha⟩
  · intro s'
    have hno : ¬ ∃ owner, Standing l s' owner ∧ ¬ (HookEvent.installed s none).Ends s' owner := by
      rintro ⟨owner, -, hend⟩
      exact hend trivial
    rw [hook_setHook, if_pos rfl, or_iff_left hno]
    simp

theorem clear (h : Hooked n l b) : Hooked n (l ++ [.cleared]) (b.clearHook n) := by
  refine h.event (samePeers_modifyNic b n _) nofun nofun ?_
  intro s
  rw [hook_clearHook, if_pos rfl]
  constructor
  · exact nofun
  · rintro (he | ⟨owner, -, hend⟩)
    · cases he
    · exact absurd trivial hend

theorem clearIf (h : Hooked n l b) (t : Handle Signal) :
    Hooked n (l ++ [.clearedIf t]) (b.clearHookIf n t) := by
  refine h.event (samePeers_clearHookIf b n t) nofun nofun ?_
  intro s
  rw [or_iff_right (by exact nofun), hook_clearHookIf]
  constructor
  · intro hk
    split at hk
    · cases hk
    · next hne =>
      obtain ⟨owner, hst⟩ := (h.hook_iff s).mp hk
      refine ⟨owner, hst, ?_⟩
      rintro rfl
      exact hne ⟨rfl, hk⟩
  · rintro ⟨owner, hst, hend⟩
    have hk := (h.hook_iff s).mpr ⟨owner, hst⟩
    rw [if_neg ?_, hk]
    rintro ⟨-, ht⟩
    exact hend (Option.some.inj (ht.symm.trans hk))

/-- Detaching a peer.  It goes by its signal alone, and that is its own. -/
theorem drop (h : Hooked n l b) (hp : b.peers.Has p) :
    Hooked n (l ++ [.dropped p]) (b.detachPeer p) := by
  refine h.event (samePeers_clearHookIf b _ _) nofun ?_ ?_
  · intro q hq
    rwa [← HookEvent.dropped.inj hq]
  · intro s
    rw [or_iff_right (by exact nofun), detachPeer, hook_clearHookIf]
    constructor
    · intro hk
      split at hk
      · cases hk
      · next hne =>
        obtain ⟨owner, hst⟩ := (h.hook_iff s).mp hk
        refine ⟨owner, hst, ?_⟩
        rintro rfl
        obtain ⟨-, hn, rfl⟩ := h.owned s p hst
        exact hne ⟨hn, hk⟩
    · rintro ⟨owner, hst, hend⟩
      have hk := (h.hook_iff s).mpr ⟨owner, hst⟩
      rw [if_neg ?_, hk]
      rintro ⟨-, ht⟩
      obtain rfl := Option.some.inj (ht.symm.trans hk)
      exact hend (h.owner_eq hp hst).1

end Hooked

/-! ### New peers -/

/-- A new peer changes no other. -/
theorem Plugs.kept (hp : Plugs m p s b b') (hq : b.peers.Has q) :
    b'.peers.Has q ∧ b'.peer q = b.peer q :=
  ⟨hq.add hp.peers, hq.get_of_add hp.peers⟩

theorem Plugs.has_cases (hp : Plugs m p s b b') (hq : b'.peers.Has q) :
    b.peers.Has q ∨ q = p :=
  Store.has_cases_of_add hq hp.peers

/-- Nor does it take a signal that others use. -/
theorem Plugs.shared (hp : Plugs m p s b b') (ht : b.Shared t) : b'.Shared t := by
  refine ⟨ht.1.add hp.signals, fun q hq => ?_⟩
  rcases hp.has_cases hq with hq | rfl
  · rw [(hp.kept hq).2]
    exact ht.2 q hq
  · rw [hp.peer_eq]
    exact (ht.1.ne_of_add hp.signals).symm

theorem OwnSignals.plugs (h : OwnSignals n b) (hp : Plugs m p s b b') : OwnSignals n b' := by
  have fresh : ∀ q, b.peers.Has q → (b.peer q).signal ≠ s := fun q hq =>
    (h.known q hq).ne_of_add hp.signals
  constructor
  · intro q hq
    rcases hp.has_cases hq with hq | rfl
    · rw [(hp.kept hq).2]
      exact (h.known q hq).add hp.signals
    · rw [hp.peer_eq]
      exact Store.has_of_add hp.signals
  · intro q r hq hr hn he
    rcases hp.has_cases hq with hq | rfl
    · rw [(hp.kept hq).2] at hn he
      rcases hp.has_cases hr with hr | rfl
      · rw [(hp.kept hr).2] at he
        exact h.own q r hq hr hn he
      · rw [hp.peer_eq] at he
        exact absurd he.symm (fresh q hq)
    · rcases hp.has_cases hr with hr | rfl
      · rw [(hp.kept hr).2, hp.peer_eq] at he
        exact absurd he (fresh r hr)
      · rfl

/-- Attaching a peer to another card. -/
theorem Hooked.attach_of_ne (h : Hooked n l b) (hp : Plugs m p s b b') (hm : m ≠ n) :
    Hooked n l b' where
  toOwnSignals := h.toOwnSignals.plugs hp
  hook_iff t := by rw [hp.nic_of_ne hm.symm, h.hook_iff]
  owned t q hst := by
    obtain ⟨hq, hqs⟩ := h.owned t q hst
    rw [(hp.kept hq).2]
    exact ⟨(hp.kept hq).1, hqs⟩
  shared t hst := hp.shared (h.shared t hst)
  gone q hq := by
    obtain ⟨hhas, hno⟩ := h.gone q hq
    rw [(hp.kept hhas).2]
    exact ⟨(hp.kept hhas).1, hno⟩

/-- Attaching a peer to the card.  Whoever was on the hook before is no longer. -/
theorem Hooked.attach (h : Hooked n l b) (hp : Plugs n p s b b') :
    Hooked n (l ++ [.installed s (some p)]) b' := by
  have stands : ∀ t owner, Standing (l ++ [.installed s (some p)]) t owner ↔
      t = s ∧ owner = some p := by
    intro t owner
    rw [standing_concat, or_iff_left fun hx => hx.2 trivial, HookEvent.installed.injEq]
    exact and_congr eq_comm eq_comm
  refine { toOwnSignals := h.toOwnSignals.plugs hp, hook_iff := ?_, owned := ?_, shared := ?_,
           gone := ?_ }
  · intro t
    rw [hp.nic_eq]
    simp only [stands, exists_and_left, exists_eq, and_true, Option.some.injEq]
    exact eq_comm
  · intro t q hst
    obtain ⟨rfl, hq⟩ := (stands t _).mp hst
    obtain rfl := Option.some.inj hq
    rw [hp.peer_eq]
    exact ⟨Store.has_of_add hp.peers, rfl, rfl⟩
  · intro t hst
    cases ((stands t _).mp hst).2
  · intro q hq
    have hq : .dropped q ∈ l := by
      rcases List.mem_append.mp hq with hq | hq
      · exact hq
      · cases List.mem_singleton.mp hq
    have hhas := (h.gone q hq).1
    rw [(hp.kept hhas).2]
    refine ⟨(hp.kept hhas).1, fun owner hst => ?_⟩
    exact (h.known q hhas).ne_of_add hp.signals ((stands _ _).mp hst).1

/-! ### Everything else -/

theorem samePeers_cardStep (m : Handle Nic) (b : Bench) (op : CardOp) :
    SamePeers b (cardStep m b op) := by
  refine ⟨fun t ht => ?_, (atCard_cardStep m b op).peers⟩
  rwa [Store.Has, (sameTies_cardStep (s := t) m b op).signals]

/-- One step of a history. -/
theorem Hooked.hookStep (h : Hooked n l b) (op : HookOp) (ha : b.Allows op) :
    Hooked n (l ++ (hookEvent? n b op).toList) (b.hookStep op) := by
  have unseen : ∀ {e : Option HookEvent} {b'}, e = none → Hooked n l b' →
      Hooked n (l ++ e.toList) b' := by
    rintro _ b' rfl h'
    simpa using h'
  cases op with
  | newSignal x =>
    refine unseen rfl (h.quiet ⟨fun t ht => ?_, rfl⟩ rfl)
    exact ht.add (rfl : b.signals.add x = _)
  | attach m =>
    obtain ⟨s, hp⟩ := b.plugs_attachPeer m
    by_cases hm : m = n
    · subst hm
      have hs : ((b.attachPeer m).2.peer (b.attachPeer m).1).signal = s :=
        congrArg Peer.signal hp.peer_eq
      have he : hookEvent? m b (.attach m) = some (.installed s (some (b.attachPeer m).1)) := by
        rw [← hs]
        exact if_pos rfl
      rw [he]
      exact h.attach hp
    · exact unseen (if_neg hm) (h.attach_of_ne hp hm)
  | drop p => exact h.drop ha
  | set m s =>
    by_cases hm : m = n
    · subst hm
      rw [hookEvent?, if_pos rfl]
      exact h.set ha
    · refine unseen (if_neg hm) (h.quiet (samePeers_modifyNic b m _) ?_)
      exact (hook_setHook b m n s).trans (if_neg hm)
  | clear m =>
    by_cases hm : m = n
    · subst hm
      rw [hookEvent?, if_pos rfl]
      exact h.clear
    · refine unseen (if_neg hm) (h.quiet (samePeers_modifyNic b m _) ?_)
      exact (hook_clearHook b m n).trans (if_neg hm)
  | clearIf m s =>
    by_cases hm : m = n
    · subst hm
      rw [hookEvent?, if_pos rfl]
      exact h.clearIf s
    · refine unseen (if_neg hm) (h.quiet (samePeers_clearHookIf b m s) ?_)
      exact (hook_clearHookIf b m n s).trans (if_neg fun hx => hm hx.1)
  | card m op =>
    have hk := (sameTies_cardStep (s := ⟨0⟩) m b op).hook n
    exact unseen rfl (h.quiet (samePeers_cardStep m b op) hk)

theorem Unplugged.hooked (h : Unplugged n b) : Hooked n [] b where
  known q hq := (h.peers q hq).2
  own p _ hp _ hn _ := absurd hn (h.peers p hp).1
  hook_iff s := by
    rw [h.hook]
    exact ⟨nofun, fun ⟨_, hst⟩ => absurd hst not_standing_nil⟩
  owned _ _ hst := absurd hst not_standing_nil
  shared _ hst := absurd hst not_standing_nil
  gone _ hp := nomatch hp

/-- A whole history. -/
theorem HookRun.hooked (hr : HookRun n b₀ l b) (h : Unplugged n b₀) : Hooked n l b := by
  induction hr with
  | start => exact h.hooked
  | step _ op ha ih => exact ih.hookStep op ha

/-! ## Who is signalled -/

/-- How often a signal was raised. -/
def raises (b : Bench) (t : Handle Signal) : Nat :=
  b.journal.count (.raised t)

/-- What comes of a frame for the wire.  If it is accepted, it is queued, and then the hook
is raised once and nothing else is; if not, nothing is raised at all. -/
inductive Rings (n : Handle Nic) (f : Frame) (b b' : Bench) : Except Rejection Unit → Prop
  | queued (ht : (b'.nic n).tx.toList = (b.nic n).tx.toList ++ [f])
    (hj : b'.journal = (b.nic n).hook.toList.map Event.raised ++
      .nic n (.accepted .transmit f) :: b.journal)
    (hs : ∀ t, b'.signal t =
      if (b.nic n).hook = some t then (b.signal t).raise else b.signal t) :
    Rings n f b b' (.ok ())
  | refused (r : Rejection) (hr : ∀ t, b'.raises t = b.raises t)
    (hs : ∀ t, b'.signal t = b.signal t) : Rings n f b b' (.error r)

theorem count_cons_nic (n : Handle Nic) (x : NicEvent) (t : Handle Signal) (l : List Event) :
    (Event.nic n x :: l).count (.raised t) = l.count (.raised t) :=
  List.count_cons_of_ne (by nofun)

/-- A signal that is not the hook is not raised. -/
theorem Rings.others {f : Frame} {x : Except Rejection Unit} (h : Rings n f b b' x)
    (ht : (b.nic n).hook ≠ some t) : b'.raises t = b.raises t ∧ b'.signal t = b.signal t := by
  cases h with
  | queued _ hj hs =>
    refine ⟨?_, by rw [hs, if_neg ht]⟩
    have hno : (((b.nic n).hook.toList.map Event.raised).count (.raised t)) = 0 := by
      rw [List.count_eq_zero, List.mem_map]
      rintro ⟨s, hs, he⟩
      obtain rfl := Event.raised.inj he
      exact ht (Option.mem_toList.mp hs)
    rw [raises, hj, List.count_append, hno, count_cons_nic, Nat.zero_add, ← raises]
  | refused r hr hs => exact ⟨hr t, hs t⟩

theorem transmit_rings (b : Bench) (n : Handle Nic) (f : Frame) :
    Rings n f b (b.transmit n f).1 (b.transmit n f).2 := by
  have ho := onlyCard_accept b n .transmit f
  have hc := b.accept_control n .transmit f
  rcases b.journal_accept n .transmit f with ⟨hok, hj⟩ | ⟨⟨r, hr⟩, hj⟩
  · have ht : ((b.transmit n f).1.nic n).tx.toList = (b.nic n).tx.toList ++ [f] := by
      rcases b.transmit_outcome n f with ⟨-, -, tx, htx, hn⟩ | ⟨⟨r, hr⟩, -⟩
      · rw [hn, htx]
      · rw [(b.transmit_eq n f).1, hok] at hr
        cases hr
    rw [transmit_of_ok hok] at ht ⊢
    refine .queued ht ?_ fun t => ?_
    · cases hk : (b.nic n).hook with
      | none =>
        rw [raiseHook_of_none (hc.hook.trans hk)]
        exact hj
      | some s =>
        rw [raiseHook_of_some (hc.hook.trans hk)]
        exact congrArg (.raised s :: ·) hj
    · cases hk : (b.nic n).hook with
      | none => rw [raiseHook_of_none (hc.hook.trans hk), if_neg nofun, ho.signal_eq]
      | some s =>
        rw [raiseHook_of_some (hc.hook.trans hk)]
        by_cases hs : t = s
        · subst hs
          rw [if_pos rfl, raise, signal_record, signal_modifySignal_self, ho.signal_eq]
        · rw [if_neg fun hx => hs (Option.some.inj hx).symm, signal_raise_of_ne hs, ho.signal_eq]
  · rw [transmit_of_error hr, hr]
    refine .refused r (fun t => ?_) ho.signal_eq
    rcases hj with hj | hj
    · rw [raises, hj, ← raises]
    · rw [raises, hj, count_cons_nic, ← raises]

/-- **The hook belongs to the newest installer that is still attached.**  Whatever is done
to a card to which nothing was attached: its hook is the signal that was installed last, if
since then the hook was not removed, not removed by naming that signal, and not given up
by the peer that owns it; and otherwise there is none.  Each accepted frame is queued and
then raises the hook once, a refused one raises nothing, and no frame raises the signal of
a detached peer. -/
theorem hook_newest (hu : Unplugged n b₀) (hr : HookRun n b₀ l b) :
    (∀ s, (b.nic n).hook = some s ↔ ∃ owner, Standing l s owner) ∧
    (∀ f, Rings n f b (b.transmit n f).1 (b.transmit n f).2) ∧
    ∀ p, .dropped p ∈ l → (b.nic n).hook ≠ some (b.peer p).signal ∧
      ∀ f, (b.transmit n f).1.raises (b.peer p).signal = b.raises (b.peer p).signal ∧
        (b.transmit n f).1.signal (b.peer p).signal = b.signal (b.peer p).signal := by
  have h := hr.hooked hu
  refine ⟨h.hook_iff, b.transmit_rings n, fun p hp => ?_⟩
  have hno : (b.nic n).hook ≠ some (b.peer p).signal := by
    intro hk
    obtain ⟨owner, hst⟩ := (h.hook_iff _).mp hk
    exact (h.gone p hp).2 owner hst
  exact ⟨hno, fun f => (b.transmit_rings n f).others hno⟩

/-- Two peers are attached to a card on which a signal was installed by hand, and the older
one is detached.  The hook is still that of the newer one, and a frame raises no other
signal. -/
theorem hook_newest_older_dropped :
    let b₀ := ((default : Bench).addNic default).2
    let b₁ := (((b₀.addSignal (.flag false)).2.setHook ⟨0⟩ ⟨0⟩).attachPeer ⟨0⟩).2
    let b := ((b₁.attachPeer ⟨0⟩).2.detachPeer ⟨0⟩).bringUp ⟨0⟩
    let l := [.installed ⟨0⟩ none, .installed ⟨1⟩ (some ⟨0⟩), .installed ⟨2⟩ (some ⟨1⟩),
      .dropped ⟨0⟩]
    Unplugged ⟨0⟩ b₀ ∧ HookRun ⟨0⟩ b₀ l b ∧ .dropped ⟨0⟩ ∈ l ∧ (b.nic ⟨0⟩).hook = some ⟨2⟩ ∧
      Rings ⟨0⟩ ⟨[1]⟩ b (b.transmit ⟨0⟩ ⟨[1]⟩).1 (b.transmit ⟨0⟩ ⟨[1]⟩).2 ∧
      (b.transmit ⟨0⟩ ⟨[1]⟩).1.signal (b.peer ⟨0⟩).signal = b.signal (b.peer ⟨0⟩).signal := by
  intro b₀ b₁ b l
  have hu : Unplugged ⟨0⟩ b₀ := ⟨rfl, fun q hq => absurd hq (Nat.not_lt_zero _)⟩
  have hr : HookRun ⟨0⟩ b₀ l b := by
    have r₁ : HookRun ⟨0⟩ b₀ [] b₀ := .start
    have r₂ := r₁.step (.newSignal (.flag false)) trivial
    have r₃ := r₂.step (.set ⟨0⟩ ⟨0⟩)
      ⟨Nat.zero_lt_one, fun q hq => absurd hq (Nat.not_lt_zero _)⟩
    have r₄ := (r₃.step (.attach ⟨0⟩) trivial).step (.attach ⟨0⟩) trivial
    exact (r₄.step (.drop ⟨0⟩) Nat.zero_lt_two).step (.card ⟨0⟩ .bringUp) trivial
  have hl : .dropped ⟨0⟩ ∈ l := by decide
  have hst : Standing l ⟨2⟩ (some ⟨1⟩) := by
    refine ⟨[.installed ⟨0⟩ none, .installed ⟨1⟩ (some ⟨0⟩)], [.dropped ⟨0⟩], rfl, ?_⟩
    intro e he
    rw [List.mem_singleton.mp he]
    exact (by decide : (some ⟨1⟩ : Option (Handle Peer)) ≠ some ⟨0⟩)
  obtain ⟨hhook, hrings, hgone⟩ := hook_newest hu hr
  exact ⟨hu, hr, hl, (hhook ⟨2⟩).mpr ⟨_, hst⟩, hrings ⟨[1]⟩, ((hgone ⟨0⟩ hl).2 ⟨[1]⟩).2⟩

end Bench
end SoftNic
