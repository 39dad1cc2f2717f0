import Javs.React

/-!
The two key slots over any number of rekeys.

A slot is installed by position and looked up by key id, and the first match wins. As long
as a rekey is never started under the key id of the active slot, both ways agree: the two
slots have different key ids, and a completed rekey switches to the slot it has derived.
-/

namespace Javs

open Lib Relation

variable {Conn : Type}

/-! ### What a completed rekey leaves behind -/

def Effect.isKeying : Effect → Bool
  | .installed _ | .rekeyed .. => true
  | _ => false

def keying (log : List Effect) : List Effect := log.filter Effect.isKeying

lemma keying_snoc (log : List Effect) (e : Effect) :
    keying (log ++ [e]) = if e.isKeying then keying log ++ [e] else keying log := by
  unfold keying
  rcases he : e.isKeying <;> simp [List.filter_append, he]

/-- A rekey to `keyId` took the slot table from `before` to `after`, when `last` was the
last that had happened to the slots: it switched to the slot installed there, which is the
one its key id finds, and the slot that was active is still found under its own. -/
def Switched (last : Option Effect) (keyId : UInt8) (before after : SlotTable) : Prop :=
  ∃ slot s : KeySlot, last = some (.installed slot) ∧ slot.IsFresh ∧ slot.keyId = keyId ∧
    s = { slot with replay := s.replay } ∧
    after.activeSlot = some s ∧ after.slotByKeyId keyId = some s ∧
    ∀ old, before.activeSlot = some old → after.slotByKeyId old.keyId = some old

/-- Every rekey in the history of the slots ended so. -/
def AllSwitched (past : List Effect) : Prop :=
  ∀ i keyId before after, past[i]? = some (.rekeyed keyId before after) →
    Switched (past.take i).getLast? keyId before after

lemma AllSwitched.snoc {past : List Effect} {e : Effect} (h : AllSwitched past)
    (he : ∀ keyId before after, e = .rekeyed keyId before after →
      Switched past.getLast? keyId before after) : AllSwitched (past ++ [e]) := by
  intro i keyId before after hi
  rcases Nat.lt_or_ge i past.length with hlt | hge
  · rw [List.getElem?_append_left hlt] at hi
    rw [List.take_append_of_le_length hlt.le]
    exact h i keyId before after hi
  · have hlen := (List.getElem?_eq_some_iff.mp hi).1
    have : i = past.length := by simp at hlen; omega
    subst this
    rw [List.take_left]
    exact he keyId before after (by simpa using hi)

/-! ### Slots with distinct key ids -/

def SlotTable.Apart (t : SlotTable) : Prop :=
  ∀ i j s s', t.slots i = some s → t.slots j = some s' → s.keyId = s'.keyId → i = j

section Tables

variable {t : SlotTable} {i : Fin 2} {s slot : KeySlot}

lemma SlotTable.Apart.position (h : t.Apart) (hs : t.slots i = some s) :
    t.position s.keyId = some i := by
  unfold SlotTable.position
  split
  · rename_i h0
    obtain ⟨s', hs', hk⟩ := Option.map_eq_some_iff.mp h0
    rw [h 0 i s' s hs' hs hk]
  · rename_i h0
    have hi : i = 1 := by
      rcases i with ⟨_ | _ | n, hn⟩
      · exact absurd (by rw [show t.slots 0 = some s from hs]; rfl) h0
      · rfl
      · omega
    subst hi
    rw [if_pos (by rw [hs]; rfl)]

lemma SlotTable.Apart.slotByKeyId (h : t.Apart) (hs : t.slots i = some s) :
    t.slotByKeyId s.keyId = some s := by
  unfold SlotTable.slotByKeyId
  rw [h.position hs, Option.bind_some, hs]

lemma SlotTable.one_sub_ne (i : Fin 2) : 1 - i ≠ i := by
  revert i
  decide

lemma SlotTable.eq_or_eq_one_sub (i j : Fin 2) : j = i ∨ j = 1 - i := by
  revert i j
  decide

@[simp] lemma SlotTable.activeSlot_installSlot (t : SlotTable) (s : KeySlot) :
    (t.installSlot s).activeSlot = t.activeSlot :=
  Function.update_of_ne (one_sub_ne _).symm _ _

lemma SlotTable.activeKeyId_eq (h : t.activeSlot = some s) : t.activeKeyId = s.keyId := by
  unfold SlotTable.activeKeyId
  rw [h]
  rfl

lemma SlotTable.place_of_none (h : t.activeSlot = none) (slot : KeySlot) :
    t.place slot = ⟨Function.update t.slots 0 (some slot), 0⟩ := by
  unfold SlotTable.place
  rw [h]

lemma SlotTable.activeSlot_place_of_none (h : t.activeSlot = none) (slot : KeySlot) :
    (t.place slot).activeSlot = some slot := by
  rw [place_of_none h]
  exact Function.update_self (0 : Fin 2) (some slot) t.slots

lemma SlotTable.apart_installSlot (hs : t.activeSlot = some s) (hk : s.keyId ≠ slot.keyId) :
    (t.installSlot slot).Apart := by
  have ha : (t.installSlot slot).slots t.activeSlotIdx = some s :=
    (Function.update_of_ne (one_sub_ne _).symm _ _).trans hs
  have ho : (t.installSlot slot).slots (1 - t.activeSlotIdx) = some slot :=
    Function.update_self ..
  intro i j u v hu hv huv
  rcases eq_or_eq_one_sub t.activeSlotIdx i with rfl | rfl <;>
    rcases eq_or_eq_one_sub t.activeSlotIdx j with rfl | rfl
  · rfl
  · rw [ha] at hu; rw [ho] at hv; cases hu; cases hv
    exact absurd huv hk
  · rw [ho] at hu; rw [ha] at hv; cases hu; cases hv
    exact absurd huv.symm hk
  · rfl

lemma SlotTable.Apart.setSlot (h : t.Apart) (hs : t.slots i = some s)
    (hk : slot.keyId = s.keyId) : (t.setSlot i slot).Apart := by
  have key : ∀ j u, Function.update t.slots i (some slot) j = some u →
      ∃ u', t.slots j = some u' ∧ u'.keyId = u.keyId := by
    intro j u hu
    by_cases hj : j = i
    · subst hj
      rw [Function.update_self] at hu
      cases hu
      exact ⟨s, hs, hk.symm⟩
    · rw [Function.update_of_ne hj] at hu
      exact ⟨u, hu, rfl⟩
  intro j j' u v hu hv huv
  obtain ⟨u', hu', eu⟩ := key j u hu
  obtain ⟨v', hv', ev⟩ := key j' v hv
  exact h j j' u' v' hu' hv' (by rw [eu, ev, huv])

end Tables

/-! ### The invariant -/

/-- What decides how a rekey ends. -/
structure SlotView where
  table : SlotTable
  state : State
  rekey : Option Track
  past : List Effect

def Abs.slotView (a : Abs) : SlotView := ⟨a.table, a.state, a.rekey, keying a.log⟩

/-- The other slot is the last one installed; only packets it has opened have changed it. -/
def SlotView.Derived (v : SlotView) (keyId : UInt8) : Prop :=
  ∃ slot s : KeySlot, v.past.getLast? = some (.installed slot) ∧ slot.IsFresh ∧
    slot.keyId = keyId ∧ s = { slot with replay := s.replay } ∧
    v.table.slots v.table.otherIdx = some s

structure Rotating (v : SlotView) : Prop where
  /-- Before the first key exchange there is no slot at all. -/
  bare : v.table.activeSlot = none → ∀ i, v.table.slots i = none
  keyed : v.state = .pushPending ∨ v.state = .established ∨ v.state = .closed →
    v.table.activeSlot.isSome
  /-- A rekey runs in an established session, under a key id that is not in use. -/
  track : ∀ t, v.rekey = some t →
    (v.state = .established ∨ v.state = .closed) ∧ v.table.activeKeyId ≠ t.keyId
  derived : ∀ t, v.rekey = some t → t.keyMethodSent = true → v.Derived t.keyId
  apart : v.table.Apart
  past : AllSwitched v.past

namespace Rotating

variable {v : SlotView} {t : Track} {slot s : KeySlot} {i : Fin 2}

lemma active (h : Rotating v) (ht : v.rekey = some t) :
    ∃ s, v.table.activeSlot = some s ∧ s.keyId ≠ t.keyId := by
  obtain ⟨hst, hk⟩ := h.track t ht
  obtain ⟨s, hs⟩ := Option.isSome_iff_exists.mp (h.keyed (.inr hst))
  exact ⟨s, hs, SlotTable.activeKeyId_eq hs ▸ hk⟩

lemma first (h : Rotating v) (hs : v.state = .keyExchange) (ha : v.table.activeSlot = none) :
    Rotating { v with table := v.table.place slot, past := v.past ++ [.installed slot] } := by
  have hp := SlotTable.place_of_none ha slot
  have hact := SlotTable.activeSlot_place_of_none ha slot
  have hno : ∀ t, v.rekey ≠ some t := fun t ht => by simpa [hs] using (h.track t ht).1
  refine ⟨fun hn => ?_, fun _ => ?_, fun t ht => absurd ht (hno t),
    fun t ht => absurd ht (hno t), ?_, h.past.snoc fun _ _ _ he => by cases he⟩
  · rw [hact] at hn
    cases hn
  · rw [hact]
    rfl
  · -- the other position is still empty
    have hone : ∀ j u, (v.table.place slot).slots j = some u → j = 0 := by
      intro j u hu
      by_contra hj
      rw [hp] at hu
      dsimp only at hu
      rw [Function.update_of_ne hj, h.bare ha] at hu
      cases hu
    intro j j' u u' hu hu' _
    rw [hone j u hu, hone j' u' hu']

lemma install (h : Rotating v) (ht : v.rekey = some t) (hk : slot.keyId = t.keyId)
    (hf : slot.IsFresh) :
    Rotating { v with table := v.table.installSlot slot, past := v.past ++ [.installed slot] } := by
  obtain ⟨s, hs, hne⟩ := h.active ht
  have hact := (v.table.activeSlot_installSlot slot).trans hs
  refine ⟨fun hn => ?_, fun _ => ?_, fun t' ht' => ⟨(h.track t' ht').1, ?_⟩, fun t' ht' _ => ?_,
    SlotTable.apart_installSlot hs (hk ▸ hne), h.past.snoc fun _ _ _ he => by cases he⟩
  · rw [hact] at hn
    cases hn
  · rw [hact]
    rfl
  · rw [SlotTable.activeKeyId_eq hact, ← SlotTable.activeKeyId_eq hs]
    exact (h.track t' ht').2
  · cases ht.symm.trans ht'
    exact ⟨slot, slot, List.getLast?_concat, hf, hk, rfl, Function.update_self ..⟩

lemma finish (h : Rotating v) (ht : v.rekey = some t) (hs : t.keyMethodSent = true) :
    Rotating { v with table := (v.table.promoteSlot t.keyId).2, rekey := none,
                      past := v.past ++ [.rekeyed t.keyId v.table
                        (v.table.promoteSlot t.keyId).2] } := by
  obtain ⟨slot, s, hl, hf, hk, hsame, hslot⟩ := h.derived t ht hs
  have hks : s.keyId = t.keyId := by rw [hsame]; exact hk
  -- the slot of the exchange is the one that is not active, so promoting it flips the index
  have hp : (v.table.promoteSlot t.keyId).2 =
      { v.table with activeSlotIdx := 1 - v.table.activeSlotIdx } := by
    unfold SlotTable.promoteSlot
    rw [← hks, h.apart.position hslot]
  have hap : (v.table.promoteSlot t.keyId).2.Apart := by rw [hp]; exact h.apart
  have hact : (v.table.promoteSlot t.keyId).2.activeSlot = some s := by rw [hp]; exact hslot
  have hslots : (v.table.promoteSlot t.keyId).2.slots = v.table.slots := by rw [hp]
  refine ⟨fun hn => ?_, fun _ => ?_, nofun, nofun, hap,
    h.past.snoc fun k b a he => ?_⟩
  · rw [hact] at hn
    cases hn
  · rw [hact]
    rfl
  · cases he
    refine ⟨slot, s, hl, hf, hk, hsame, hact, ?_, fun old hold => ?_⟩
    · have hfind := hap.slotByKeyId (hact : _ = some s)
      rwa [hks] at hfind
    · exact hap.slotByKeyId ((congrFun hslots _).trans hold)

lemma use (h : Rotating v) (hi : v.table.slots i = some s) (hk : slot.keyId = s.keyId)
    (hsame : i = v.table.activeSlotIdx ∨ slot = { s with replay := slot.replay }) :
    Rotating { v with table := v.table.setSlot i slot } := by
  have hact : ∃ u, v.table.activeSlot = some u := by
    by_contra hn
    rw [not_exists, ← Option.eq_none_iff_forall_ne_some] at hn
    rw [h.bare hn] at hi
    cases hi
  obtain ⟨u, hu⟩ := hact
  have hact' : ∃ u', (v.table.setSlot i slot).activeSlot = some u' ∧ u'.keyId = u.keyId := by
    by_cases hia : i = v.table.activeSlotIdx
    · subst hia
      cases hu.symm.trans hi
      exact ⟨slot, Function.update_self .., hk⟩
    · exact ⟨u, (Function.update_of_ne (Ne.symm hia) _ _).trans hu, rfl⟩
  obtain ⟨u', hu', hku⟩ := hact'
  refine ⟨fun hn => ?_, fun _ => ?_, fun t ht => ⟨(h.track t ht).1, ?_⟩, fun t ht hs => ?_,
    h.apart.setSlot hi hk, h.past⟩
  · rw [hu'] at hn
    cases hn
  · rw [hu']
    rfl
  · rw [SlotTable.activeKeyId_eq hu', hku, ← SlotTable.activeKeyId_eq hu]
    exact (h.track t ht).2
  · obtain ⟨d, o, hl, hf, hd, ho, hother⟩ := h.derived t ht hs
    -- a change to the other slot is only that of its replay window
    by_cases hio : i = 1 - v.table.activeSlotIdx
    · subst hio
      cases hother.symm.trans hi
      have hslot := hsame.resolve_left (SlotTable.one_sub_ne _)
      refine ⟨d, slot, hl, hf, hd, ?_, Function.update_self ..⟩
      rw [hslot, ho]
    · exact ⟨d, o, hl, hf, hd, ho, (Function.update_of_ne (Ne.symm hio) _ _).trans hother⟩

end Rotating

/-! ### Moves and events keep it -/

section Events

variable {S : VpnServer Conn} {addr : SocketAddr} {n : ℕ} {l : Lane} {a b : Abs}

lemma slotView_of_silent {e : Effect} (he : e.isKeying = false) (ht : b.table = a.table)
    (hs : b.state = a.state) (hr : b.rekey = a.rekey) (hl : b.log = a.log ++ [e]) :
    b.slotView = a.slotView := by
  unfold Abs.slotView
  rw [ht, hs, hr, hl, keying_snoc, he]
  rfl

lemma slotView_tell_keying {e : Effect} (he : e.isKeying = true) (a : Abs) :
    (a.tell e).slotView = { a.slotView with past := a.slotView.past ++ [e] } := by
  unfold Abs.slotView Abs.tell
  dsimp only
  rw [keying_snoc, if_pos he]

lemma slotView_tell {e : Effect} (he : e.isKeying = false) (a : Abs) :
    (a.tell e).slotView = a.slotView :=
  slotView_of_silent he rfl rfl rfl rfl

lemma slotView_build {e : Effect} (he : e.isKeying = false) (a : Abs) :
    (a.build e).slotView = a.slotView :=
  slotView_of_silent he rfl rfl rfl rfl

lemma slotView_hear (a : Abs) (ctrl : ControlPacket) : (a.hear ctrl).slotView = a.slotView := by
  unfold Abs.hear
  split
  · rfl
  · exact slotView_tell rfl a

lemma slotView_sending (hl : l = .send ∨ l = .flush) (h : ReflTransGen (Move S addr n l) a b) :
    b.slotView = a.slotView := by
  induction h with
  | refl => rfl
  | tail _ hm ih =>
    rw [← ih]
    cases hm with
    | wire | sent | ack | drained => exact slotView_tell rfl _
    | frag => exact slotView_build rfl _
    | _ => simp at hl

lemma Rotating.rekeyMove (h : Rotating a.slotView) (hm : Move S addr n .rekey a b) :
    Rotating b.slotView := by
  cases hm with
  | wire _ _ bytes => rwa [slotView_tell rfl]
  | sent _ _ pkt hp => rwa [slotView_tell rfl]
  | ack _ _ pkt hl => simp at hl
  | drained _ _ out hl => simp at hl
  | frag _ _ pkt hl hk hp => simp at hl
  | rkHandshaken _ t ht hs =>
    rw [slotView_tell rfl]
    refine ⟨h.bare, h.keyed, fun t' ht' => ?_, fun t' ht' => ?_, h.apart, h.past⟩
    · cases ht'
      exact h.track t ht
    · cases ht'
      exact h.derived t ht
  | rkInstalled _ t slot ht hs hk hf =>
    rw [slotView_tell_keying rfl]
    exact h.install ht hk hf
  | rkReplied _ t slot ht hs hslot hk hf hl =>
    rw [slotView_tell rfl]
    refine ⟨h.bare, h.keyed, fun t' ht' => ?_, fun t' ht' _ => ?_, h.apart, h.past⟩
    · cases ht'
      exact h.track t ht
    · cases ht'
      refine ⟨slot, slot, ?_, hf, hk, rfl, hslot⟩
      obtain ⟨pre, hpre⟩ := List.getLast?_eq_some_iff.mp hl
      change (keying a.log).getLast? = _
      rw [hpre, keying_snoc]
      exact List.getLast?_concat
  | rkDrained _ t out ht => rwa [slotView_tell rfl]
  | rkFrag _ t pkt ht hk hp => rwa [slotView_build rfl]
  | rkFinished _ t ht hs =>
    rw [slotView_tell_keying rfl]
    exact h.finish ht hs

/-- On the main track a slot is only installed where there was none, as long as that is so
when the handler starts. -/
structure FirstKeys (n : ℕ) (a : Abs) : Prop where
  rotating : Rotating a.slotView
  len : n ≤ a.log.length
  unkeyed : installs (a.log.drop n) = [] → a.state = .handshaking ∨ a.state = .keyExchange →
    a.table.activeSlot = none

lemma FirstKeys.silent {e : Effect} (h : FirstKeys n a) (he : e.isKeying = false)
    (ht : b.table = a.table) (hs : b.state = a.state) (hr : b.rekey = a.rekey)
    (hl : b.log = a.log ++ [e]) : FirstKeys n b := by
  refine ⟨slotView_of_silent he ht hs hr hl ▸ h.rotating, by simp [hl, h.len.trans], ?_⟩
  rw [hl, List.drop_append_of_le_length h.len, installs_append, ht, hs]
  exact fun hi => h.unkeyed (List.append_eq_nil_iff.mp hi).1

lemma FirstKeys.move (h : FirstKeys n a) (hm : Move S addr n .main a b) : FirstKeys n b := by
  have hno : a.state = .keyExchange ∨ a.state = .handshaking ∨ a.state = .pushPending →
      ∀ t, a.rekey ≠ some t := by
    intro hs t ht
    have := (h.rotating.track t ht).1
    rcases hs with hs | hs | hs <;> simp [Abs.slotView, hs] at this
  cases hm with
  | wire | sent | ack | drained | frag | assignStatic | assignPool | assignV6 =>
    exact h.silent rfl rfl rfl rfl rfl
  | handshaken _ hs =>
    have hr := h.rotating
    refine FirstKeys.silent (a := { a with state := .keyExchange }) ⟨?_, h.len, ?_⟩ rfl rfl rfl
      rfl rfl
    · exact ⟨hr.bare, by simp [Abs.slotView], fun t ht => absurd ht (hno (.inr (.inl hs)) t),
        hr.derived, hr.apart, hr.past⟩
    · exact fun hi _ => h.unkeyed hi (.inl hs)
  | installed _ slot hs hk hf hn =>
    refine ⟨?_, by simp [Abs.tell, h.len.trans], fun hi => ?_⟩
    · rw [slotView_tell_keying rfl]
      exact h.rotating.first hs (h.unkeyed hn (.inr hs))
    · rw [Abs.tell, List.drop_append_of_le_length h.len, installs_append] at hi
      exact absurd (List.append_eq_nil_iff.mp hi).2 (by simp [installs])
  | keyed _ hs ha =>
    have hr := h.rotating
    exact ⟨⟨hr.bare, fun _ => ha, fun t ht => absurd ht (hno (.inl hs) t), hr.derived, hr.apart,
      hr.past⟩, h.len, by simp⟩
  | established _ hs ha =>
    have hr := h.rotating
    exact ⟨⟨hr.bare, fun _ => hr.keyed (.inl hs),
      fun t ht => absurd ht (hno (.inr (.inr hs)) t), hr.derived, hr.apart, hr.past⟩, h.len,
      by simp⟩
  | closed _ hs =>
    have hr := h.rotating
    exact ⟨⟨hr.bare, fun _ => hr.keyed (.inr (.inl hs)), fun t ht => ⟨.inr rfl,
      (hr.track t ht).2⟩, hr.derived, hr.apart, hr.past⟩, h.len, by simp⟩

lemma Rotating.rekeyMoves (h : Rotating a.slotView)
    (hm : ReflTransGen (Move S addr n .rekey) a b) : Rotating b.slotView := by
  induction hm with
  | refl => exact h
  | tail _ hm ih => exact ih.rekeyMove hm

lemma FirstKeys.moves (h : FirstKeys n a) (hm : ReflTransGen (Move S addr n .main) a b) :
    FirstKeys n b := by
  induction hm with
  | refl => exact h
  | tail _ hm ih => exact ih.move hm

lemma Rotating.start (h : Rotating a.slotView) (hs : a.state = .established) {keyId : UInt8}
    (hk : keyId ≠ a.table.activeKeyId) : Rotating (a.startRekey keyId).slotView := by
  refine ⟨h.bare, h.keyed, fun t ht => ?_, fun t ht hsent => ?_, h.apart, h.past⟩ <;> cases ht
  · exact ⟨.inl hs, hk.symm⟩
  · cases hsent

lemma Rotating.seal (h : Rotating b.slotView) {slot : KeySlot}
    (hs : b.table.activeSlot = some slot) (ha : (b.seal slot).MayWire a) :
    Rotating a.slotView := by
  have hseal : Rotating (b.seal slot).slotView := by
    rw [show (b.seal slot).slotView = { b.slotView with table := (b.seal slot).table } by
      simp [Abs.slotView, Abs.seal, keying_snoc, Effect.isKeying]]
    exact h.use hs rfl (.inl rfl)
  rcases ha with rfl | ⟨bytes, rfl⟩
  · exact hseal
  · rwa [slotView_tell rfl]

lemma Rotating.opened {w : World Conn} (h : Rotating w.abs.slotView) {pkt plaintext : Bytes}
    {dp : DataPacketV2} {i : Fin 2} {slot : KeySlot} (ho : Opens S w pkt dp i slot plaintext) :
    Rotating (w.opened pkt dp i slot).abs.slotView := by
  rw [show (w.opened pkt dp i slot).abs.slotView =
      { w.abs.slotView with table := (w.opened pkt dp i slot).abs.table } by
    simp [Abs.slotView, World.abs, World.opened, keying_snoc, Effect.isKeying]]
  exact h.use (i := i) ho.found rfl (.inr rfl)

end Events

/-! ### Runs -/

/-- A `SOFT_RESET` that passes the replay check and starts a rekey names another key id than that
of the active slot, and the main track is not driven again after a key exchange that broke off
behind the installation of its slot. -/
def FreshKeyIds (w : World Conn) : Event Conn → Prop
  | .control _ ctrl replayPid => accepts w replayPid = true →
    (ctrl.op = .controlSoftResetV1 → w.sess.state = .established → w.sess.rekey = none →
      ctrl.keyId ≠ w.sess.activeKeyId) ∧
    (ctrl.op = .controlV1 → w.sess.state = .handshaking ∨ w.sess.state = .keyExchange →
      w.sess.activeSlot = none)
  | _ => True

instance (w : World Conn) (e : Event Conn) : Decidable (FreshKeyIds w e) :=
  match e with
  | .control .. => inferInstanceAs (Decidable (_ → (_ → _ → _ → _) ∧ (_ → _ → _)))
  | .data .. | .tun .. | .ping _ | .rekey _ | .retransmit _ | .shutdown _ | .shared _ =>
    instDecidableTrue

lemma nextKeyId_ne (keyId : UInt8) : (keyId + 1) &&& 7 ≠ keyId := by
  rcases keyId with ⟨k⟩
  revert k
  decide +kernel

lemma Rotating.step {S : VpnServer Conn} {addr : SocketAddr} {w : World Conn} {e : Event Conn}
    {a : Abs} (h : Rotating w.abs.slotView) (hc : FreshKeyIds w e) (hr : Reacts S addr w e a) :
    Rotating a.slotView := by
  cases hr with
  | rejected | refused | tunIdle | pingIdle | rekeyIdle | shared => exact h
  | @main env ctrl replayPid _ hacc hop hrk hm =>
    have hv := slotView_hear w.abs ctrl
    -- keys of the first exchange are installed only into an empty table
    refine (FirstKeys.moves ⟨?_, ?_, fun _ hst => ?_⟩ hm).rotating
    · rwa [slotView_tell rfl, slotView_hear]
    · simp [Abs.tell, log_hear, World.abs]
    · have hstate : (w.abs.hear ctrl).state = w.sess.state := congrArg SlotView.state hv
      have htable : (w.abs.hear ctrl).table = w.sess.toSlotTable := congrArg SlotView.table hv
      change (w.abs.hear ctrl).table.activeSlot = none
      rw [htable]
      exact (hc hacc).2 hop (hstate ▸ hst)
  | rekeying hacc hop t hrk hk hm =>
    refine Rotating.rekeyMoves ?_ hm
    rwa [slotView_tell rfl, slotView_hear]
  | @softReset env ctrl replayPid _ hacc hop hrk hs reply hp hm =>
    rw [slotView_sending (.inl rfl) hm, slotView_build rfl]
    have hv := slotView_hear w.abs ctrl
    have hstate : (w.abs.hear ctrl).state = w.sess.state := congrArg SlotView.state hv
    have htable : (w.abs.hear ctrl).table = w.sess.toSlotTable := congrArg SlotView.table hv
    refine Rotating.start (hv ▸ h) (hstate.trans hs) ?_
    rw [htable]
    exact (hc hacc).1 hop hs hrk
  | heard hacc hop => rwa [slotView_hear]
  | opened dp i slot plaintext ho => exact h.opened ho
  | forwarded dp i slot plaintext ho =>
    rw [slotView_tell rfl]
    exact h.opened ho
  | tun slot hs ha => exact h.seal hs ha
  | ping slot hs ha => exact h.seal hs ha
  | rekey hrk hs pkt hp hm =>
    rw [slotView_sending (.inl rfl) hm, slotView_build rfl]
    exact h.start hs (nextKeyId_ne _)
  | retransmit hm => rwa [slotView_sending (.inl rfl) hm]
  | shutdown hm => rwa [slotView_sending (.inr rfl) hm]

lemma rotating_started (S : VpnServer Conn) (o : Opening Conn) :
    Rotating (started S o).abs.slotView := by
  obtain ⟨reply, -, hm⟩ := started_moves S ⟨.v4 0, 0⟩ o
  rw [slotView_sending (.inl rfl) hm, slotView_build rfl]
  refine ⟨fun _ _ => rfl, ?_, nofun, nofun, nofun, nofun⟩
  simp [Abs.slotView, Abs.opening]

/-- **Rekeys rotate the slots.** In every run in which no rekey is started under the key id
of the active slot, the two slots have distinct key ids, and every rekey that completes
switches to the slot it has derived. -/
theorem rekeys_rotate (S : VpnServer Conn) (addr : SocketAddr) (o : Opening Conn)
    (es : List (Event Conn)) (hc : AllMeet (step S addr) FreshKeyIds (started S o) es) :
    (run (step S addr) (started S o) es).sess.toSlotTable.Apart ∧
      AllSwitched (keying (run (step S addr) (started S o) es).log) := by
  have h : Rotating (run (step S addr) (started S o) es).abs.slotView :=
    run_keeps (I := fun w => Rotating w.abs.slotView)
      (fun w e hw hce => hw.step hce (step_reacts S addr w e)) (rotating_started S o) hc
  exact ⟨h.apart, h.past⟩

def clientRekey (keyId : UInt8) : List (Event Plain) :=
  [.control (plainEnv 2) (clientPacket .controlSoftResetV1 keyId 2 []) none,
   .control (plainEnv 2) (clientPacket .controlV1 keyId 3 (clientKm2 4)) none]

theorem rekeys_rotate_toOne :
    let w := run (step plainServer plainAddr) (started plainServer plainOpening)
      (establishing :: clientRekey 1)
    w.sess.activeKeyId = 1 ∧ w.sess.toSlotTable.Apart ∧ AllSwitched (keying w.log) := by
  obtain ⟨hactive, hfresh⟩ : (run (step plainServer plainAddr) (started plainServer plainOpening)
        (establishing :: clientRekey 1)).sess.activeKeyId = 1 ∧
      AllMeet (step plainServer plainAddr) FreshKeyIds (started plainServer plainOpening)
        (establishing :: clientRekey 1) := by decide +kernel
  exact ⟨hactive, rekeys_rotate plainServer plainAddr plainOpening _ hfresh⟩

def Effect.encKey? : Effect → Option Bytes
  | .installed slot => some slot.cipher.encKey
  | .rekeyed _ _ after => after.activeSlot.map fun s => s.cipher.encKey
  | _ => none

lemma Switched.encKey {last : Option Effect} {keyId : UInt8} {before after : SlotTable}
    (h : Switched last keyId before after) :
    (Effect.rekeyed keyId before after).encKey? = last.bind Effect.encKey? := by
  obtain ⟨slot, s, rfl, -, -, hs, ha, -⟩ := h
  rw [Effect.encKey?, ha, hs]
  rfl

lemma rekeyToActive_facts :
    let w := run (step plainServer plainAddr) (started plainServer plainOpening)
      (establishing :: clientRekey 0)
    (w.sess.slots 0).map KeySlot.keyId = some 0 ∧ (w.sess.slots 1).map KeySlot.keyId = some 0 ∧
      ((keying w.log)[2]?.bind Effect.encKey?) = some (List.replicate 32 3) ∧
      ((keying w.log).take 2).getLast?.bind Effect.encKey? = some (List.replicate 32 4) ∧
      (keying w.log)[2]?.any fun | .rekeyed .. => true | _ => false := by
  decide +kernel

/-- A rekey under the key id of the active slot: both slots end up with it, and the one
that is active is the old one. -/
theorem rekey_to_activeKeyId :
    let w := run (step plainServer plainAddr) (started plainServer plainOpening)
      (establishing :: clientRekey 0)
    ¬ w.sess.toSlotTable.Apart ∧ ¬ AllSwitched (keying w.log) := by
  have hfacts := rekeyToActive_facts
  revert hfacts
  generalize run (step plainServer plainAddr) (started plainServer plainOpening)
    (establishing :: clientRekey 0) = w
  rintro ⟨h0, h1, hnew, hlast, hre⟩
  constructor
  · intro h
    obtain ⟨s, hs, hk⟩ := Option.map_eq_some_iff.mp h0
    obtain ⟨s', hs', hk'⟩ := Option.map_eq_some_iff.mp h1
    exact absurd (h 0 1 s s' hs hs' (hk.trans hk'.symm)) (by decide)
  · intro h
    rcases he : (keying w.log)[2]? with _ | e
    · simp [he] at hre
    · rw [he] at hre hnew
      cases e with
      | rekeyed keyId before after =>
        have := (h 2 keyId before after he).encKey
        rw [Option.bind_some] at hnew
        rw [hnew, hlast] at this
        exact absurd this (by decide)
      | _ => cases hre

end Javs
