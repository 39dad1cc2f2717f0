import Javs.Assign
import Javs.KeyHistory
import Javs.Rekey

/-!
The life of a session: its states, and what may exist in each of them.

A session goes from the handshake over the key exchange and `PUSH_REQUEST` to the established
state, and from there at most to the closed one. Key slots, the rekey track and the tunnel
address each appear at one point of this way.
-/

namespace Javs

open Lib Lib.Proc Relation M

variable {Conn : Type}

def State.rank : State → ℕ
  | .waitingHardReset => 0
  | .handshaking => 1
  | .keyExchange => 2
  | .pushPending => 3
  | .established => 4
  | .closed => 5

/-! ### Handshakes and installed slots in the log -/

def Effect.isReset : Effect → Bool
  | .reset _ => true
  | _ => false

/-- Since the last reset packet was built, and with it the last rekey begun, the handshake of
the rekey under `keyId` was found complete. -/
def HandshakenSince (keyId : UInt8) (log : List Effect) : Prop :=
  ∃ log₁ log₂, log = log₁ ++ log₂ ∧ Effect.handshaken (.rekey keyId) ∈ log₂ ∧
    ∀ e ∈ log₂, e.isReset = false

lemma handshakenSince_self (keyId : UInt8) (log : List Effect) :
    HandshakenSince keyId (log ++ [.handshaken (.rekey keyId)]) :=
  ⟨log, _, rfl, by simp, by simp [Effect.isReset]⟩

lemma HandshakenSince.snoc {keyId : UInt8} {log : List Effect} {e : Effect}
    (h : HandshakenSince keyId log) (he : e.isReset = false) :
    HandshakenSince keyId (log ++ [e]) := by
  obtain ⟨log₁, log₂, rfl, hmem, hres⟩ := h
  refine ⟨log₁, log₂ ++ [e], by simp, by simp [hmem], fun x hx => ?_⟩
  rcases List.mem_append.mp hx with hx | hx
  · exact hres x hx
  · rw [List.mem_singleton.mp hx]
    exact he

/-- A slot may be installed: the initial handshake is complete, and so is that of the rekey
which installs it, unless it is the first slot. -/
def MayInstall (keyId : UInt8) (log : List Effect) : Prop :=
  Effect.handshaken .main ∈ log ∧ (installs log = [] ∨ HandshakenSince keyId log)

def InstalledDuly (log : List Effect) : Prop :=
  ∀ log₁ slot log₂, log = log₁ ++ Effect.installed slot :: log₂ → MayInstall slot.keyId log₁

lemma InstalledDuly.snoc {log : List Effect} {e : Effect} (h : InstalledDuly log)
    (he : ∀ slot, e = .installed slot → MayInstall slot.keyId log) :
    InstalledDuly (log ++ [e]) := by
  intro log₁ slot log₂ heq
  rcases List.eq_nil_or_concat log₂ with rfl | ⟨l, x, rfl⟩
  · obtain ⟨rfl, hx⟩ := List.append_inj' heq rfl
    exact he slot (List.cons.inj hx).1
  · rw [List.concat_eq_append, ← List.cons_append, ← List.append_assoc] at heq
    obtain ⟨rfl, -⟩ := List.append_inj' heq rfl
    exact h log₁ slot l rfl

/-! ### The invariant -/

/-- Which of the slots, the rekey track and the states go together. -/
structure Shape (a : Abs) : Prop where
  keyed : a.state.unkeyed = false → a.table.activeSlot.isSome
  bare : a.table.activeSlot = none → ∀ i, a.table.slots i = none
  track : ∀ t, a.rekey = some t → a.state.early = false

/-- What may exist in a session, and since when. -/
structure Lifecycle (a : Abs) : Prop extends Shape a where
  handshaken : a.state ≠ .waitingHardReset → a.state ≠ .handshaking →
    Effect.handshaken .main ∈ a.log
  fresh : a.table.activeSlot = none → installs a.log = []
  slots : ∀ i s, a.table.slots i = some s →
    ∃ s₀ ∈ installs a.log, s₀.keyId = s.keyId ∧ s₀.cipher = s.cipher
  installed : InstalledDuly a.log
  tracked : ∀ t, a.rekey = some t → t.state = .keyExchange → HandshakenSince t.keyId a.log
  assigned : a.log.any Effect.isAssigned = true → a.ip.isSome
  addressed : a.state.early = false → a.ip.isSome
  promoted : ∀ k before after, Effect.rekeyed k before after ∈ a.log →
    before.activeSlot.isSome ∧ after.activeSlot.isSome

/-- The effects that mark a point of the session's life. -/
def Effect.marks : Effect → Bool
  | .installed _ | .rekeyed .. | .reset _ | .assigned _ => true
  | _ => false

lemma installs_snoc_of_unmarked {e : Effect} (he : e.marks = false) (log : List Effect) :
    installs (log ++ [e]) = installs log := by
  rw [installs_append]
  cases e <;> simp [Effect.marks, installs] at he ⊢

section Moves

variable {S : VpnServer Conn} {addr : SocketAddr} {n : ℕ} {l : Lane} {a b : Abs}

lemma State.unkeyed_of_early {st : State} (h : st.early = false) : st.unkeyed = false := by
  cases st <;> simp [State.early, State.unkeyed] at h ⊢

lemma Shape.congr (h : Shape a) (ht : b.table = a.table) (hs : b.state = a.state)
    (hr : b.rekey = a.rekey) : Shape b :=
  ⟨by rw [hs, ht]; exact h.keyed, by rw [ht]; exact h.bare, by rw [hr, hs]; exact h.track⟩

lemma Shape.of_active (hact : b.table.activeSlot.isSome)
    (htrack : ∀ t, b.rekey = some t → b.state.early = false) : Shape b := by
  refine ⟨fun _ => hact, fun hn => ?_, htrack⟩
  rw [hn] at hact
  cases hact

lemma SlotTable.activeSlot_promoteSlot {t : SlotTable} (h : t.activeSlot.isSome) (keyId : UInt8) :
    (t.promoteSlot keyId).2.activeSlot.isSome := by
  unfold SlotTable.promoteSlot
  rcases hp : t.position keyId with _ | i
  · exact h
  · unfold SlotTable.position at hp
    split at hp
    · rename_i h0
      cases hp
      show (t.slots 0).isSome
      rcases hs : t.slots 0 with _ | s <;> simp [hs] at h0 ⊢
    · split at hp
      · rename_i h1
        cases hp
        show (t.slots 1).isSome
        rcases hs : t.slots 1 with _ | s <;> simp [hs] at h1 ⊢
      · cases hp

lemma Shape.active_of_track (h : Shape a) {t : Track} (ht : a.rekey = some t) :
    a.table.activeSlot.isSome :=
  h.keyed (State.unkeyed_of_early (h.track t ht))

lemma Shape.no_track (h : Shape a) (hs : a.state.early = true) (t : Track) : a.rekey ≠ some t := by
  intro ht
  have hearly := h.track t ht
  rw [hs] at hearly
  cases hearly

lemma Shape.move (h : Shape a) (hm : Move S addr n l a b) : Shape b := by
  cases hm with
  | wire | sent | ack | drained | frag | rkDrained | rkFrag | assignStatic | assignPool
  | assignV6 =>
    exact h.congr rfl rfl rfl
  -- before the handshake is over there is no track to speak of
  | handshaken _ hs =>
    exact ⟨nofun, h.bare, fun t ht => absurd ht (h.no_track (by rw [hs]; rfl) t)⟩
  | installed _ slot hs =>
    exact .of_active (isSome_activeSlot_place _ _) h.track
  | keyed _ hs ha =>
    exact .of_active ha fun t ht => absurd ht (h.no_track (by rw [hs]; rfl) t)
  | established _ hs => exact .of_active (h.keyed (by rw [hs]; rfl)) fun _ _ => rfl
  | closed _ hs => exact .of_active (h.keyed (by rw [hs]; rfl)) fun _ _ => rfl
  | rkHandshaken _ t ht => exact .of_active (h.active_of_track ht) fun _ _ => h.track t ht
  -- the slot goes into the other position, so the active one stays
  | rkInstalled _ t slot ht =>
    refine .of_active ?_ h.track
    rw [show (Abs.tell _ _).table = a.table.installSlot slot from rfl,
      SlotTable.activeSlot_installSlot]
    exact h.active_of_track ht
  | rkReplied _ t slot ht => exact .of_active (h.active_of_track ht) fun _ _ => h.track t ht
  | rkFinished _ t ht =>
    exact .of_active (SlotTable.activeSlot_promoteSlot (h.active_of_track ht) _) nofun

lemma Shape.moves (h : Shape a) (hm : ReflTransGen (Move S addr n l) a b) : Shape b := by
  induction hm with
  | refl => exact h
  | tail _ hm ih => exact ih.move hm

lemma Shape.use (h : Shape a) (slot : KeySlot) {i : Fin 2} {s : KeySlot}
    (hi : a.table.slots i = some s) : Shape { a with table := a.table.setSlot i slot } := by
  have hold : a.table.activeSlot.isSome := by
    rw [Option.isSome_iff_ne_none]
    intro hn
    rw [h.bare hn] at hi
    cases hi
  refine .of_active ?_ h.track
  by_cases hia : a.table.activeSlotIdx = i
  · simp [SlotTable.activeSlot, SlotTable.setSlot, hia]
  · simpa [SlotTable.activeSlot, SlotTable.setSlot, Function.update_of_ne hia] using hold

lemma Shape.begin (h : Shape a) (hs : a.state = .established) (keyId : UInt8)
    (pkt : ControlPacket) : Shape ((a.startRekey keyId).build (.reset pkt)) := by
  refine .of_active (h.keyed (by rw [hs]; rfl)) fun _ _ => ?_
  show a.state.early = false
  rw [hs]
  rfl

lemma Lifecycle.tell (h : Lifecycle a) {e : Effect} (he : e.marks = false) (ht : b.table = a.table)
    (hs : b.state = a.state) (hr : b.rekey = a.rekey) (hi : b.ip = a.ip)
    (hl : b.log = a.log ++ [e]) : Lifecycle b where
  toShape := h.toShape.congr ht hs hr
  handshaken h1 h2 := by
    rw [hl]
    exact List.mem_append_left _ (h.handshaken (hs ▸ h1) (hs ▸ h2))
  fresh := by rw [ht, hl, installs_snoc_of_unmarked he]; exact h.fresh
  slots := by rw [ht, hl, installs_snoc_of_unmarked he]; exact h.slots
  installed := by
    rw [hl]
    refine h.installed.snoc fun slot hslot => ?_
    rw [hslot] at he
    cases he
  tracked t ht' hst := by
    rw [hl]
    refine (h.tracked t (hr ▸ ht') hst).snoc ?_
    cases e <;> first | rfl | cases he
  assigned := by
    rw [hl, hi, List.any_append]
    intro hany
    refine h.assigned ?_
    rcases (Bool.or_eq_true _ _).mp hany with hany | hany
    · exact hany
    · cases e <;> simp [Effect.marks, Effect.isAssigned] at he hany
  addressed := by rw [hs, hi]; exact h.addressed
  promoted k before after hmem := by
    rw [hl, List.mem_append] at hmem
    rcases hmem with hmem | hmem
    · exact h.promoted k before after hmem
    · rw [← List.mem_singleton.mp hmem] at he
      cases he

lemma Lifecycle.install (h : Lifecycle a) {slot : KeySlot} {i : Fin 2} {t : SlotTable}
    (hslots : t.slots = Function.update a.table.slots i (some slot)) (hact : t.activeSlot.isSome)
    (hmay : MayInstall slot.keyId a.log) :
    Lifecycle ({ a with table := t }.tell (.installed slot)) where
  toShape := .of_active hact h.track
  handshaken h1 h2 := List.mem_append_left _ (h.handshaken h1 h2)
  fresh hn := by
    rw [show t.activeSlot = none from hn] at hact
    cases hact
  slots j s hs := by
    have hs' : Function.update a.table.slots i (some slot) j = some s := hslots ▸ hs
    have hnew : slot ∈ installs (a.log ++ [.installed slot]) := by simp [installs]
    -- the new slot is its own origin; the other one goes back to where it did
    by_cases hj : j = i
    · rw [hj, Function.update_self] at hs'
      exact ⟨slot, hnew, by rw [Option.some.inj hs'], by rw [Option.some.inj hs']⟩
    · rw [Function.update_of_ne hj] at hs'
      obtain ⟨s₀, hmem, hk⟩ := h.slots j s hs'
      exact ⟨s₀, installs_append _ _ ▸ List.mem_append_left _ hmem, hk⟩
  installed := h.installed.snoc fun s hs => by
    obtain rfl := Effect.installed.inj hs
    exact hmay
  tracked t ht hst := (h.tracked t ht hst).snoc rfl
  assigned hany := h.assigned (by simpa [Abs.tell, Effect.isAssigned] using hany)
  addressed := h.addressed
  promoted k before after hmem :=
    h.promoted k before after (by simpa [Abs.tell] using hmem)

lemma Lifecycle.advance (h : Lifecycle a) {st : State} (hshape : Shape { a with state := st })
    (hshaken : Effect.handshaken .main ∈ a.log) (haddr : st.early = false → a.ip.isSome) :
    Lifecycle { a with state := st } :=
  { h with toShape := hshape, handshaken := fun _ _ => hshaken, addressed := haddr }

lemma Lifecycle.assign (h : Lifecycle a) (addr : SocketAddr) (ip : Ipv4Addr) :
    Lifecycle (a.assign addr ip) where
  toShape := h.toShape.congr rfl rfl rfl
  handshaken h1 h2 := List.mem_append_left _ (h.handshaken h1 h2)
  fresh hn := by
    rw [Abs.assign, installs_append, h.fresh hn]
    rfl
  slots i s hs := by
    obtain ⟨s₀, hmem, hk⟩ := h.slots i s hs
    exact ⟨s₀, installs_append _ _ ▸ List.mem_append_left _ hmem, hk⟩
  installed := h.installed.snoc nofun
  tracked t ht hst := (h.tracked t ht hst).snoc rfl
  assigned _ := rfl
  addressed _ := rfl
  promoted k before after hmem := h.promoted k before after (by simpa [Abs.assign] using hmem)

lemma Lifecycle.promote (h : Lifecycle a) {t : Track} (ht : a.rekey = some t) :
    Lifecycle ({ a with table := (a.table.promoteSlot t.keyId).2, rekey := none }.tell
      (.rekeyed t.keyId a.table (a.table.promoteSlot t.keyId).2)) := by
  have hact := h.active_of_track ht
  have hact' := SlotTable.activeSlot_promoteSlot hact t.keyId
  refine ⟨.of_active hact' nofun, fun h1 h2 => List.mem_append_left _ (h.handshaken h1 h2),
    fun hn => ?_, fun i s hs => ?_, h.installed.snoc nofun, nofun, fun hany => ?_, h.addressed, ?_⟩
  · rw [show (a.table.promoteSlot t.keyId).2.activeSlot = none from hn] at hact'
    cases hact'
  · obtain ⟨s₀, hmem, hk⟩ := h.slots i s (slots_promoteSlot a.table t.keyId ▸ hs)
    exact ⟨s₀, installs_append _ _ ▸ List.mem_append_left _ hmem, hk⟩
  · exact h.assigned (by simpa [Abs.tell, Effect.isAssigned] using hany)
  · intro k before after hmem
    rcases List.mem_append.mp hmem with hmem | hmem
    · exact h.promoted k before after hmem
    · cases List.mem_singleton.mp hmem
      exact ⟨hact, hact'⟩

lemma Lifecycle.rekeyMove (h : Lifecycle a) (hm : Move S addr n .rekey a b) : Lifecycle b := by
  have hshape := h.toShape.move hm
  cases hm with
  | wire | sent | rkDrained | rkFrag => exact h.tell rfl rfl rfl rfl rfl rfl
  | ack _ _ _ hl | drained _ _ _ hl => simp at hl
  | frag _ _ _ hl => simp at hl
  | rkHandshaken _ t ht hs =>
    have hlog : Lifecycle (a.tell (.handshaken (.rekey t.keyId))) := h.tell rfl rfl rfl rfl rfl rfl
    exact { hlog with
      toShape := hshape
      tracked := fun t' ht' _ => by
        obtain rfl := Option.some.inj ht'
        exact handshakenSince_self _ _ }
  | rkInstalled _ t slot ht hs hk hf =>
    have hearly := h.track t ht
    refine h.install rfl ?_ ⟨h.handshaken ?_ ?_, .inr ?_⟩
    · rw [SlotTable.activeSlot_installSlot]
      exact h.active_of_track ht
    · rintro hst
      simp [hst, State.early] at hearly
    · rintro hst
      simp [hst, State.early] at hearly
    · exact hk ▸ h.tracked t ht hs
  | rkReplied _ t slot ht hs hslot hk hf hl =>
    have hlog : Lifecycle (a.tell (.replied t.keyId)) := h.tell rfl rfl rfl rfl rfl rfl
    exact { hlog with
      toShape := hshape
      tracked := fun t' ht' hst => by
        obtain rfl := Option.some.inj ht'
        exact hlog.tracked t ht hst }
  | rkFinished _ t ht hs => exact h.promote ht

def FirstInstall (n : ℕ) (a : Abs) : Prop :=
  n ≤ a.log.length ∧ (a.state.unkeyed = true → installs (a.log.take n) = [])

lemma FirstInstall.move (h : FirstInstall n a) (hm : Move S addr n .main a b) :
    FirstInstall n b := by
  have hlog : n ≤ b.log.length ∧ b.log.take n = a.log.take n := by
    rcases hm.log with e | ⟨e, -, hl⟩
    · rw [e]
      exact ⟨h.1, rfl⟩
    · rw [hl]
      exact ⟨h.1.trans (by simp), List.take_append_of_le_length h.1⟩
  refine ⟨hlog.1, fun hu => ?_⟩
  rw [hlog.2]
  refine h.2 ?_
  cases hm with
  | handshaken _ hs => rw [hs]; rfl
  | keyed | established | closed => simp [State.unkeyed] at hu
  | _ => exact hu

lemma Lifecycle.mainMove (h : Lifecycle a) (hf : FirstInstall n a) (hm : Move S addr n .main a b) :
    Lifecycle b := by
  have hshape := h.toShape.move hm
  have hshaken (st : State) (hst : a.state = st) (h1 : st ≠ .waitingHardReset)
      (h2 : st ≠ .handshaking) : Effect.handshaken .main ∈ a.log :=
    h.handshaken (hst ▸ h1) (hst ▸ h2)
  cases hm with
  | wire | sent | ack | drained | frag | assignV6 => exact h.tell rfl rfl rfl rfl rfl rfl
  | handshaken _ hs =>
    have hlog : Lifecycle (a.tell (.handshaken .main)) := h.tell rfl rfl rfl rfl rfl rfl
    exact hlog.advance hshape (by simp [Abs.tell]) fun hst => by cases hst
  -- up to here nothing was installed, neither before this handler nor in it
  | installed _ slot hs hk hfresh hn =>
    obtain ⟨i, hi⟩ := slots_place a.table slot
    have hnone : installs a.log = [] := by
      rw [← List.take_append_drop n a.log, installs_append, hn, List.append_nil]
      exact hf.2 (by rw [hs]; rfl)
    exact h.install hi (isSome_activeSlot_place _ _)
      ⟨hshaken _ hs (by decide) (by decide), .inl hnone⟩
  | keyed _ hs ha =>
    exact h.advance hshape (hshaken _ hs (by decide) (by decide)) fun hst => by cases hst
  | assignStatic _ ip hs hr hn => exact h.assign addr ip
  | assignPool _ hs hle hn =>
    have hbump : Lifecycle a.bump := { h with toShape := h.toShape.congr rfl rfl rfl }
    exact hbump.assign addr a.tab.nextPoolIp
  | established _ hs ha =>
    -- the address was assigned since the handler began, which is part of the log
    have hany : a.log.any Effect.isAssigned = true := by
      rw [← List.take_append_drop n a.log, List.any_append]
      exact Bool.or_eq_true_iff.mpr (.inr ha)
    exact h.advance hshape (hshaken _ hs (by decide) (by decide)) fun _ => h.assigned hany
  | closed _ hs =>
    exact h.advance hshape (hshaken _ hs (by decide) (by decide))
      fun _ => h.addressed (by rw [hs]; rfl)

lemma Lifecycle.sendMove (h : Lifecycle a) (hl : l = .send ∨ l = .flush)
    (hm : Move S addr n l a b) : Lifecycle b := by
  cases hm with
  | wire | sent | ack | drained | frag => exact h.tell rfl rfl rfl rfl rfl rfl
  | _ => simp at hl

lemma Lifecycle.use (h : Lifecycle a) (slot : KeySlot) {i : Fin 2} {s : KeySlot}
    (hi : a.table.slots i = some s) (hk : slot.keyId = s.keyId) (hc : slot.cipher = s.cipher) :
    Lifecycle { a with table := a.table.setSlot i slot } := by
  have hshape := h.toShape.use slot hi
  refine { h with toShape := hshape, fresh := fun hn => ?_, slots := fun j x hx => ?_ }
  · have hnone : (a.table.setSlot i slot).slots i = none := hshape.bare hn i
    simp [SlotTable.setSlot] at hnone
  · by_cases hj : j = i
    · have hx' : slot = x := by simpa [SlotTable.setSlot, hj] using hx
      rw [← hx', hk, hc]
      exact h.slots i s hi
    · exact h.slots j x (by simpa [SlotTable.setSlot, Function.update_of_ne hj] using hx)

lemma Lifecycle.begin (h : Lifecycle a) (hs : a.state = .established) (keyId : UInt8)
    (pkt : ControlPacket) : Lifecycle ((a.startRekey keyId).build (.reset pkt)) where
  toShape := h.toShape.begin hs keyId pkt
  handshaken h1 h2 := List.mem_append_left _ (h.handshaken h1 h2)
  fresh hn := by
    rw [Abs.build, installs_append, Abs.startRekey, h.fresh hn]
    rfl
  slots i s hs := by
    obtain ⟨s₀, hmem, hk⟩ := h.slots i s hs
    exact ⟨s₀, installs_append _ _ ▸ List.mem_append_left _ hmem, hk⟩
  installed := h.installed.snoc nofun
  tracked t ht hst := by
    obtain rfl := Option.some.inj ht
    cases hst
  assigned hany := h.assigned (by simpa [Abs.build, Abs.startRekey, Effect.isAssigned] using hany)
  addressed := h.addressed
  promoted k before after hmem :=
    h.promoted k before after (by simpa [Abs.build, Abs.startRekey] using hmem)

lemma Move.forward (hm : Move S addr n l a b) : a.state.rank ≤ b.state.rank := by
  cases hm with
  | handshaken _ hs | keyed _ hs | established _ hs | closed _ hs =>
    rw [hs]
    exact Nat.le_succ _
  | _ => exact le_rfl

lemma moves_forward (hm : ReflTransGen (Move S addr n l) a b) : a.state.rank ≤ b.state.rank := by
  induction hm with
  | refl => exact le_rfl
  | tail _ hm ih => exact ih.trans hm.forward

end Moves

/-! ### Events -/

section Events

variable {S : VpnServer Conn} {addr : SocketAddr} {w : World Conn} {e : Event Conn} {a : Abs}

lemma Reacts.forward (h : Reacts S addr w e a) : w.sess.state.rank ≤ a.state.rank := by
  have hhear {n : ℕ} {l : Lane} {b : Abs} (ctrl : ControlPacket)
      (hm : ReflTransGen (Move S addr n l) b a) (hb : b.state = (w.abs.hear ctrl).state) :
      w.sess.state.rank ≤ a.state.rank := by
    have hstate : b.state = w.sess.state := hb.trans (hear_state w.abs ctrl)
    rw [← hstate]
    exact moves_forward hm
  have hseal {slot : KeySlot} (ha : (w.abs.seal slot).MayWire a) :
      w.sess.state.rank ≤ a.state.rank := by
    rcases ha with rfl | ⟨bytes, rfl⟩ <;> exact le_rfl
  cases h with
  | rejected | refused | opened | forwarded | tunIdle | pingIdle | rekeyIdle | shared =>
    exact le_rfl
  | @main _ ctrl _ _ _ _ _ hm => exact hhear ctrl hm rfl
  | @rekeying _ ctrl _ _ _ _ _ _ _ hm => exact hhear ctrl hm rfl
  | @softReset _ ctrl _ _ _ _ _ _ _ _ hm => exact hhear ctrl hm rfl
  | @heard _ ctrl => exact hhear (n := 0) (l := .main) ctrl .refl rfl
  | tun _ _ ha => exact hseal ha
  | ping _ _ ha => exact hseal ha
  | rekey _ _ _ _ hm => exact moves_forward hm
  | retransmit hm => exact moves_forward hm
  | shutdown hm => exact moves_forward hm

def Abs.Unkeyed (a : Abs) : Prop := a.state.unkeyed = true → a.table.activeSlot = none

lemma Lifecycle.moves {n : ℕ} {l : Lane} {b c : Abs} (h : Lifecycle b)
    (hm : ReflTransGen (Move S addr n l) b c) (hl : l = .main → FirstInstall n b) :
    Lifecycle c := by
  suffices hboth : Lifecycle c ∧ (l = .main → FirstInstall n c) from hboth.1
  induction hm with
  | refl => exact ⟨h, hl⟩
  | tail _ hm ih =>
    cases l with
    | main => exact ⟨ih.1.mainMove (ih.2 rfl) hm, fun _ => (ih.2 rfl).move hm⟩
    | rekey => exact ⟨ih.1.rekeyMove hm, nofun⟩
    | flush => exact ⟨ih.1.sendMove (.inr rfl) hm, nofun⟩
    | send => exact ⟨ih.1.sendMove (.inl rfl) hm, nofun⟩

lemma Lifecycle.sideMoves {n : ℕ} {l : Lane} {b c : Abs} (h : Lifecycle b)
    (hm : ReflTransGen (Move S addr n l) b c) (hl : l ≠ .main) : Lifecycle c :=
  h.moves hm fun hmain => absurd hmain hl

/-- What is kept by everything an event is made of, except for the moves of the main track, as long
as rekeys begin under key ids as given. -/
structure Enduring (S : VpnServer Conn) (addr : SocketAddr) (K : UInt8 → Prop) (I : Abs → Prop) :
    Prop where
  tell : ∀ {a b e}, I a → e.marks = false → b.table = a.table → b.state = a.state →
    b.rekey = a.rekey → b.ip = a.ip → b.log = a.log ++ [e] → I b
  shared : ∀ {a} tab, I a → I { a with tab }
  use : ∀ {a} slot {i s}, I a → a.table.slots i = some s → slot.keyId = s.keyId →
    slot.cipher = s.cipher → I { a with table := a.table.setSlot i slot }
  begin : ∀ {a}, I a → a.state = .established → ∀ keyId pkt, K keyId →
    I ((a.startRekey keyId).build (.reset pkt))
  side : ∀ {n l a b}, I a → l ≠ .main → ReflTransGen (Move S addr n l) a b → I b

section Enduring

variable {K : UInt8 → Prop} {I : Abs → Prop} (hI : Enduring S addr K I)
include hI

lemma Enduring.hear {b : Abs} (h : I b) (ctrl : ControlPacket) : I (b.hear ctrl) := by
  unfold Abs.hear
  split
  · exact h
  · exact hI.tell h rfl rfl rfl rfl rfl rfl

lemma Enduring.seal {slot : KeySlot} (h : I w.abs) (hs : w.sess.activeSlot = some slot)
    (ha : (w.abs.seal slot).MayWire a) : I a := by
  have hseal : I (w.abs.seal slot) :=
    hI.tell (e := .sealed slot.cipher slot.dataPidOut)
      (hI.use { slot with dataPidOut := slot.dataPidOut + 1 } (i := w.sess.activeSlotIdx) h hs rfl
        rfl) rfl rfl rfl rfl rfl rfl
  rcases ha with rfl | ⟨bytes, rfl⟩
  · exact hseal
  · exact hI.tell hseal rfl rfl rfl rfl rfl rfl

lemma Enduring.opened {pkt plaintext : Bytes} {dp : DataPacketV2} {i : Fin 2} {slot : KeySlot}
    (h : I w.abs) (ho : Opens S w pkt dp i slot plaintext) : I (w.opened pkt dp i slot).abs :=
  hI.tell (e := .opened slot.cipher dp.packetId pkt)
    (hI.use { slot with replay := (slot.replay.checkAndSet dp.packetId).2 } (i := i) h ho.found
      rfl rfl) rfl rfl rfl rfl rfl rfl

lemma Enduring.react (h : I w.abs)
    (hK : ∀ env ctrl replayPid, e = .control env ctrl replayPid → K ctrl.keyId)
    (hown : K ((w.sess.activeKeyId + 1) &&& 7))
    (hmain : ∀ ctrl, I ((w.abs.hear ctrl).tell (.feed .main ctrl)) →
      ReflTransGen (Move S addr w.log.length .main) ((w.abs.hear ctrl).tell (.feed .main ctrl)) a →
      I a)
    (hr : Reacts S addr w e a) : I a := by
  have hfed (ctx : Ctx) (ctrl : ControlPacket) : I ((w.abs.hear ctrl).tell (.feed ctx ctrl)) :=
    hI.tell (hI.hear h ctrl) rfl rfl rfl rfl rfl rfl
  cases hr with
  | rejected | refused | tunIdle | pingIdle | rekeyIdle => exact h
  | shared => exact hI.shared _ h
  | main _ _ _ hm => exact hmain _ (hfed _ _) hm
  | rekeying _ _ t _ _ hm => exact hI.side (hfed _ _) (by decide) hm
  -- a rekey begins under the key id of the client, or below under the next one of the server
  | @softReset _ ctrl _ _ _ _ _ hs _ _ hm =>
    refine hI.side (hI.begin (hI.hear h ctrl) ((hear_state w.abs ctrl).trans hs) _ _ ?_)
      (by decide) hm
    exact hK _ _ _ rfl
  | heard => exact hI.hear h _
  | opened dp i slot plaintext ho => exact hI.opened h ho
  | forwarded dp i slot plaintext ho => exact hI.tell (hI.opened h ho) rfl rfl rfl rfl rfl rfl
  | tun slot hs ha => exact hI.seal h hs ha
  | ping slot hs ha => exact hI.seal h hs ha
  | rekey _ hs _ _ hm => exact hI.side (hI.begin h hs _ _ hown) (by decide) hm
  | retransmit hm => exact hI.side h (by decide) hm
  | shutdown hm => exact hI.side h (by decide) hm

end Enduring

lemma enduring_shape : Enduring S addr (fun _ => True) Shape where
  tell h _ ht hs hr _ _ := h.congr ht hs hr
  shared _ h := h.congr rfl rfl rfl
  use slot _ _ h hi _ _ := h.use slot hi
  begin h hs keyId pkt _ := h.begin hs keyId pkt
  side h _ hm := h.moves hm

lemma enduring_lifecycle : Enduring S addr (fun _ => True) Lifecycle where
  tell h he ht hs hr hi hl := h.tell he ht hs hr hi hl
  shared _ h := { h with toShape := h.toShape.congr rfl rfl rfl }
  use slot _ _ h hi hk hc := h.use slot hi hk hc
  begin h hs keyId pkt _ := h.begin hs keyId pkt
  side h hl hm := h.sideMoves hm hl

lemma Shape.react (h : Shape w.abs) (hr : Reacts S addr w e a) : Shape a :=
  enduring_shape.react h (fun _ _ _ _ => trivial) trivial (fun _ hfed hm => hfed.moves hm) hr

lemma Lifecycle.react (h : Lifecycle w.abs) (hu : w.abs.Unkeyed) (hr : Reacts S addr w e a) :
    Lifecycle a := by
  refine enduring_lifecycle.react h (fun _ _ _ _ => trivial) trivial
    (fun ctrl hfed hm => hfed.moves hm fun _ => ⟨?_, fun hun => ?_⟩) hr
  · simp [Abs.tell, log_hear, World.abs]
  -- a session without keys has no slot, and so none was installed before the packet came
  · have hlog : ((w.abs.hear ctrl).tell (.feed .main ctrl)).log =
        w.log ++ (ackOf ctrl ++ [.feed .main ctrl]) := by
      simp [Abs.tell, log_hear, World.abs]
    rw [hlog, List.take_left]
    have hstate : ((w.abs.hear ctrl).tell (.feed .main ctrl)).state = w.abs.state :=
      hear_state w.abs ctrl
    rw [hstate] at hun
    exact h.fresh (hu hun)

/-! ### The key exchange is not cut in two -/

/-- Queuing plaintext on a TLS connection does not fail. -/
def VpnServer.Queues (S : VpnServer Conn) : Prop :=
  ∀ c data, (S.rustls.writePlaintext c data).2 = true

lemma ends_sendPlaintext (hS : S.Queues) (data : Bytes) (u : World Conn) {E : World Conn → Prop} :
    Ends (fun w => w = u) (sendPlaintext S data) (fun _ w => ∃ tls, w = u.setTls tls) E := by
  unfold sendPlaintext
  refine ends_get_bind fun w hw => ?_
  have hok : (w.sess.tls.sendPlaintext S.rustls data).2 = true := hS _ _
  dsimp only
  refine ends_bind (M := fun _ w => ∃ tls, w = u.setTls tls) (ends_put ⟨_, by rw [hw]; rfl⟩)
    fun _ => ?_
  rw [if_pos hok]
  exact ends_pure fun _ h => h

lemma ends_handleKeyMethod2 (hS : S.Queues) (km : ClientKeyMethod2) (tab : Tables)
    (cn : Option Text) {E : World Conn → Prop} :
    Ends (fun w => w.tab = tab ∧ w.sess.clientCn = cn) (handleKeyMethod2 S km)
      (fun _ w => w.sess.state = .pushPending ∧ w.tab = tab ∧ w.sess.clientCn = cn) E := by
  unfold handleKeyMethod2
  refine ends_bind (M := fun _ w => (w.sess.clientPreMaster.isSome ∧ w.sess.clientRandom1.isSome ∧
    w.sess.clientRandom2.isSome) ∧ w.tab = tab ∧ w.sess.clientCn = cn)
    (ends_modify fun w hw => ⟨⟨rfl, rfl, rfl⟩, hw⟩) fun _ => ?_
  refine ends_bind (M := fun _ w => w.tab = tab ∧ w.sess.clientCn = cn) ?_ fun _ => ?_
  -- the message has just been stored, so all the values the slot is derived from are there
  · unfold installPrfSlot
    refine ends_get_bind fun w hw => ?_
    obtain ⟨⟨h1, h2, h3⟩, hkept⟩ := hw
    obtain ⟨pm, hpm⟩ := Option.isSome_iff_exists.mp h1
    obtain ⟨r1, hr1⟩ := Option.isSome_iff_exists.mp h2
    obtain ⟨r2, hr2⟩ := Option.isSome_iff_exists.mp h3
    simp only [Session.prfSlot, hpm, hr1, hr2]
    exact fun _ _ => hkept
  · refine ends_get_bind fun w hw => ?_
    refine ends_bind (ends_sendPlaintext hS _ w) fun _ => ends_modify ?_
    rintro _ ⟨tls, rfl⟩
    exact ⟨rfl, hw⟩

lemma unkeyed_of_rank {b : Abs} (h : 3 ≤ b.state.rank) : b.Unkeyed := by
  intro hu
  revert h hu
  cases b.state <;> simp [State.rank, State.unkeyed]

lemma round_now (w : World Conn) : Round w.log.length w := by
  refine ⟨⟨w.sess.state, false, false, ⟨le_rfl, rfl, ?_, ?_⟩, .inl ⟨rfl, rfl⟩⟩, fun _ => ?_⟩
  · simp [assignedSince]
  · simp [assignedV6Since]
  · simp [installs]

lemma ends_driveRound (hS : S.Queues) :
    Ends (fun w => w.abs.Unkeyed) (driveRound S addr) (fun _ w => w.abs.Unkeyed)
      fun w => w.abs.Unkeyed := by
  refine ends_of_after fun w hw => ?_
  by_cases hrank : 3 ≤ w.sess.state.rank
  · have hm : ReflTransGen (Move S addr w.log.length .main) w.abs (driveRound S addr w).2.abs :=
      Steps.of_reflTransGen (meets_driveRound w (round_now w)).1
    exact unkeyed_of_rank (hrank.trans (moves_forward hm))
  · have hdone : Ends (fun u => u = w) (driveRound S addr) (fun _ u => u.abs.Unkeyed)
        fun u => u.abs.Unkeyed := by
      refine ends_get_bind fun u hu => ?_
      subst hu
      rcases hst : u.sess.state <;> simp only [hst, State.rank] at hrank
      case keyExchange =>
        refine ends_bind (M := fun _ v => v = u) (ends_ofExcept (fun _ _ _ h => h)
          fun _ h => h ▸ hw) fun pop => ?_
        rcases pop with ⟨km, k⟩ | _
        · refine ends_bind ((ends_drainPlaintext k).conseq (fun _ h => h) (fun _ _ h => h)
            fun _ h => h ▸ hw) fun _ => ?_
          refine ends_bind ((ends_handleKeyMethod2 hS km u.tab u.sess.clientCn).conseq
            (fun _ ⟨_, h⟩ => h ▸ ⟨rfl, rfl⟩) (fun _ _ h => h) fun _ h => h) fun _ => ?_
          refine ends_pure fun v hv => unkeyed_of_rank ?_
          rw [show v.abs.state = _ from hv.1]
          decide
        · exact ends_pure fun _ h => h ▸ hw
      case waitingHardReset => exact ends_pure fun _ h => h ▸ hw
      case handshaking => exact ends_pure fun _ h => h ▸ hw
      all_goals omega
    exact hdone.after rfl

lemma ends_driveLoop (hS : S.Queues) (fuel : ℕ) :
    Ends (fun w => w.abs.Unkeyed) (driveLoop S addr fuel) (fun _ w => w.abs.Unkeyed)
      fun w => w.abs.Unkeyed := by
  induction fuel with
  | zero => exact ends_pure fun _ h => h
  | succ fuel ih =>
    refine ends_bind (ends_driveRound hS) fun goOn => ?_
    cases goOn with
    | true => exact ih
    | false => exact ends_pure fun _ h => h

lemma unkeyed_of_slotView {b c : Abs} (h : c.slotView = b.slotView) (hb : b.Unkeyed) :
    c.Unkeyed := by
  have ht : c.table = b.table := congrArg SlotView.table h
  have hs : c.state = b.state := congrArg SlotView.state h
  unfold Abs.Unkeyed
  rw [ht, hs]
  exact hb

lemma ends_handleMainControl (hS : S.Queues) (ctrl : ControlPacket) :
    Ends (fun w => w.abs.Unkeyed) (handleMainControl S addr ctrl) (fun _ w => w.abs.Unkeyed)
      fun w => w.abs.Unkeyed := by
  unfold handleMainControl
  refine ends_get_bind fun w hw => ?_
  dsimp only
  let P : World Conn → Prop := fun u => u.abs.Unkeyed ∧ u.sess.state = w.sess.state
  refine ends_bind (M := fun _ => P) (ends_put ⟨hw, rfl⟩) fun _ => ?_
  refine ends_bind ((ends_context _ _).conseq (fun _ h => h) (fun _ _ h => h) fun _ h => h.1)
    fun _ => ?_
  have hrest : Ends (fun w => w.abs.Unkeyed) (do driveControlPlane S addr; flushOutgoing S)
      (fun _ w => w.abs.Unkeyed) fun w => w.abs.Unkeyed := by
    refine ends_bind (M := fun _ u => u.abs.Unkeyed) (ends_get_bind fun u hu => ?_)
      fun _ => ends_of_after fun u hu => ?_
    · exact (ends_driveLoop hS _).conseq (fun _ h => h ▸ hu) (fun _ _ h => h) fun _ h => h
    · have hm : ReflTransGen (Move S addr 0 .flush) u.abs (flushOutgoing S u).2.abs :=
        steps_of_meets (meets_flushOutgoing (c := u.abs.core) (.inr rfl)) rfl rfl
      exact unkeyed_of_slotView (slotView_sending (.inr rfl) hm) hu
  split
  · rename_i hst
    refine ends_bind (M := fun _ u => u.abs.Unkeyed) (ends_modify fun u hu => ?_) fun _ => hrest
    have hnone : u.sess.activeSlot = none := by
      refine hu.1 ?_
      rw [show u.abs.state = _ from hu.2.trans hst.1]
      rfl
    intro _
    unfold Session.finalizeKeys
    split <;> exact hnone
  · exact hrest.conseq (fun _ h => h.1) (fun _ _ h => h) fun _ h => h

lemma unkeyed_step (hS : S.Queues) (h : Shape w.abs) (hu : w.abs.Unkeyed) (e : Event Conn) :
    (step S addr w e).abs.Unkeyed := by
  have hr := step_reacts S addr w e
  by_cases hrank : 3 ≤ w.sess.state.rank
  · exact unkeyed_of_rank (hrank.trans hr.forward)
  -- From here on the session has no slot, and no rekey.
  have hun : w.sess.state.unkeyed = true := by
    revert hrank
    cases w.sess.state <;> simp [State.rank, State.unkeyed]
  have hnone : w.sess.activeSlot = none := hu hun
  have hhear (ctrl : ControlPacket) : (w.abs.hear ctrl).Unkeyed :=
    unkeyed_of_slotView (slotView_hear w.abs ctrl) hu
  have hslot {i : Fin 2} {slot : KeySlot} (hs : w.sess.slots i = some slot) : False := by
    have hnone' := h.bare hnone i
    rw [show w.abs.table.slots i = some slot from hs] at hnone'
    cases hnone'
  generalize hstep : (step S addr w e).abs = a at hr
  cases hr with
  | rejected | refused | tunIdle | pingIdle | rekeyIdle | shared => exact hu
  | @main env ctrl replayPid _ hacc hop hrk hm =>
    obtain ⟨w', ha, hrun⟩ := @handleLocked_main _ S addr _ _ _ hacc hop hrk env
    have hafter : (step S addr w (.control env ctrl replayPid)).abs =
        (handleMainControl S addr ctrl w').2.abs := congrArg (fun r => r.2.abs) hrun
    rw [← hstep, hafter]
    refine (ends_handleMainControl hS ctrl).after ?_
    rw [ha]
    exact hhear ctrl
  | rekeying _ _ t ht =>
    have hkeyed : w.sess.state.unkeyed = false := State.unkeyed_of_early (h.track t ht)
    rw [hkeyed] at hun
    cases hun
  | softReset _ _ _ hs => simp [hs, State.unkeyed] at hun
  | heard => exact hhear _
  | opened dp i slot plaintext ho => exact (hslot ho.found).elim
  | forwarded dp i slot plaintext ho => exact (hslot ho.found).elim
  | tun slot hs => rw [hs] at hnone; cases hnone
  | ping slot hs => rw [hs] at hnone; cases hnone
  | rekey _ hs => simp [hs, State.unkeyed] at hun
  | retransmit hm => exact unkeyed_of_slotView (slotView_sending (.inl rfl) hm) hu
  | shutdown hm => exact unkeyed_of_slotView (slotView_sending (.inr rfl) hm) hu

end Events

/-! ### Runs -/

lemma lifecycle_started (S : VpnServer Conn) (o : Opening Conn) :
    Lifecycle (started S o).abs ∧ (started S o).abs.Unkeyed := by
  obtain ⟨reply, -, hm⟩ := started_moves S ⟨.v4 0, 0⟩ o
  have hopen : Lifecycle ((Abs.opening o.tab o.peerId).build (.reset reply)) := {
    handshaken := fun _ h => absurd rfl h
    keyed := fun h => by simp [Abs.build, Abs.opening, State.unkeyed] at h
    bare := fun _ _ => rfl
    fresh := fun _ => rfl
    slots := fun _ _ h => by simp [Abs.build, Abs.opening] at h
    installed := fun log₁ slot log₂ heq => by
      cases log₁ <;> simp [Abs.build, Abs.opening] at heq
    track := fun _ h => by simp [Abs.build, Abs.opening] at h
    tracked := fun _ h => by simp [Abs.build, Abs.opening] at h
    assigned := fun h => by simp [Abs.build, Abs.opening, Effect.isAssigned] at h
    addressed := fun h => by simp [Abs.build, Abs.opening, State.early] at h
    promoted := fun _ _ _ h => by simp [Abs.build, Abs.opening] at h }
  refine ⟨hopen.sideMoves hm (by decide), ?_⟩
  exact unkeyed_of_slotView (slotView_sending (.inl rfl) hm) fun _ => rfl

/-- What a session looks like in each state. -/
structure LivesInOrder (w : World Conn) : Prop where
  /-- A slot exists only once the initial handshake is complete. -/
  handshaken : ∀ i slot, w.sess.slots i = some slot → Effect.handshaken .main ∈ w.log
  /-- It is one that was installed, and all but the first were installed by a rekey whose own
  handshake was complete. -/
  slots : ∀ i slot, w.sess.slots i = some slot →
    ∃ s ∈ installs w.log, s.keyId = slot.keyId ∧ s.cipher = slot.cipher
  installed : InstalledDuly w.log
  populated : w.sess.activeSlot.isSome ↔
    w.sess.state = .pushPending ∨ w.sess.state = .established ∨ w.sess.state = .closed
  promoted : ∀ k before after, Effect.rekeyed k before after ∈ w.log →
    before.activeSlot.isSome ∧ after.activeSlot.isSome
  addressed : w.sess.state = .established ∨ w.sess.state = .closed → w.sess.assignedIp.isSome
  rekeying : w.sess.rekey.isSome → w.sess.state = .established ∨ w.sess.state = .closed

lemma Lifecycle.livesInOrder {w : World Conn} (h : Lifecycle w.abs) (hu : w.abs.Unkeyed) :
    LivesInOrder w where
  handshaken i slot hs := by
    obtain ⟨s, hmem, -⟩ := h.slots i slot hs
    obtain ⟨e, he, hes⟩ := List.mem_filterMap.mp hmem
    -- a slot in the table goes back to an install, before which the handshake was complete
    have heq : e = .installed s := by
      cases e <;> simp at hes
      rw [hes]
    obtain ⟨log₁, log₂, hlog⟩ := List.append_of_mem (heq ▸ he)
    have hlog' : w.log = _ := hlog
    rw [hlog']
    exact List.mem_append_left _ (h.installed log₁ s log₂ hlog).1
  slots := h.slots
  installed := h.installed
  populated := by
    constructor
    · intro hs
      have hkeyed : ¬ w.sess.state.unkeyed = true := fun hun => by
        rw [show w.sess.activeSlot = none from hu hun] at hs
        cases hs
      revert hkeyed
      cases w.sess.state <;> simp [State.unkeyed]
    · intro hst
      refine h.keyed ?_
      rcases hst with hst | hst | hst <;> rw [show w.abs.state = _ from hst] <;> rfl
  promoted := h.promoted
  addressed hst := by
    refine h.addressed ?_
    rcases hst with hst | hst <;> rw [show w.abs.state = _ from hst] <;> rfl
  rekeying hr := by
    obtain ⟨rk, hrk⟩ := Option.isSome_iff_exists.mp hr
    have hearly : w.sess.state.early = false := h.track rk.track (by simp [World.abs, hrk])
    revert hearly
    cases w.sess.state <;> simp [State.early]

/-- **A session's life is in order.** In every run, if queuing plaintext on the TLS connection
does not fail, whatever state is reached is in order, and the state never moves back. -/
theorem session_livesInOrder (S : VpnServer Conn) (addr : SocketAddr) (o : Opening Conn)
    (es : List (Event Conn)) (hS : S.Queues) :
    LivesInOrder (run (step S addr) (started S o) es) ∧
      ∀ later, (run (step S addr) (started S o) es).sess.state.rank ≤
        (run (step S addr) (started S o) (es ++ later)).sess.state.rank := by
  constructor
  · have hkeeps (w : World Conn) (e : Event Conn) (hw : Lifecycle w.abs ∧ w.abs.Unkeyed) :
        Lifecycle (step S addr w e).abs ∧ (step S addr w e).abs.Unkeyed :=
      ⟨hw.1.react hw.2 (step_reacts S addr w e), unkeyed_step hS hw.1.toShape hw.2 e⟩
    have hrun : Lifecycle (run (step S addr) (started S o) es).abs ∧
        (run (step S addr) (started S o) es).abs.Unkeyed :=
      run_invariant hkeeps (lifecycle_started S o)
    exact hrun.1.livesInOrder hrun.2
  · intro later
    rw [run_append]
    generalize run (step S addr) (started S o) es = w
    exact run_invariant (I := fun u => w.sess.state.rank ≤ u.sess.state.rank)
      (fun u e hu => hu.trans (step_reacts S addr u e).forward) le_rfl

/-- The plain client, established and then rekeyed. -/
theorem session_livesInOrder_rekeyed :
    plainServer.Queues ∧ LivesInOrder (run (step plainServer plainAddr)
      (started plainServer plainOpening) (establishing :: clientRekey 1)) :=
  ⟨fun _ _ => rfl, (session_livesInOrder plainServer plainAddr plainOpening
    (establishing :: clientRekey 1) fun _ _ => rfl).1⟩

end Javs
