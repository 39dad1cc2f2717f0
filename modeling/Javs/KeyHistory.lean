import Mathlib.Data.List.Nodup
import Javs.React

/-!
The history of a session's keys.

Seen from the keys, a run only does three things: it puts a fresh slot into one of the two
positions, it seals under a slot, and it opens under one. The view keeps the two positions
and the records of all three, so that what was ever done under a key can be compared with
what its slot still knows.
-/

namespace Javs

open Lib Relation

variable {Conn : Type}

def Effect.sealed? : Effect → Option (DataCipher × UInt32)
  | .sealed c pid => some (c, pid)
  | _ => none

def Effect.opened? : Effect → Option (DataCipher × UInt32 × Bytes)
  | .opened c pid pkt => some (c, pid, pkt)
  | _ => none

structure KeyView where
  slots : Fin 2 → Option KeySlot
  installs : List KeySlot
  /-- The cipher and packet id of every `seal`. -/
  seals : List (DataCipher × UInt32)
  /-- The cipher and packet id of every packet opened, and the packet. -/
  opens : List (DataCipher × UInt32 × Bytes)

def Abs.keys (a : Abs) : KeyView :=
  ⟨a.table.slots, Javs.installs a.log, a.log.filterMap Effect.sealed?,
    a.log.filterMap Effect.opened?⟩

/-- The packet carries `pid` and opens under the cipher. -/
def Authentic (p : Primitives) (c : DataCipher) (pid : UInt32) (wire : Bytes) : Prop :=
  ∃ dp aad plaintext, DataPacketV2.parse wire = .ok dp ∧ dp.packetId = pid ∧
    Bytes.slice wire 0 8 = .ok aad ∧ c.open' p pid aad dp.ciphertext = .ok plaintext

inductive Turn (p : Primitives) : KeyView → KeyView → Prop
  | install (v i slot) (hf : slot.IsFresh) :
      Turn p v { v with slots := Function.update v.slots i (some slot),
                        installs := v.installs ++ [slot] }
  | sealing (v i slot) (hs : v.slots i = some slot) :
      Turn p v { v with slots := Function.update v.slots i
                          (some { slot with dataPidOut := slot.dataPidOut + 1 }),
                        seals := v.seals ++ [(slot.cipher, slot.dataPidOut)] }
  | opening (v i slot pid wire) (hs : v.slots i = some slot)
      (hp : (slot.replay.checkAndSet pid).1 = true) (ha : Authentic p slot.cipher pid wire) :
      Turn p v { v with slots := Function.update v.slots i
                          (some { slot with replay := (slot.replay.checkAndSet pid).2 }),
                        opens := v.opens ++ [(slot.cipher, pid, wire)] }

/-! ### Every run is a history -/

section Runs

variable {S : VpnServer Conn} {addr : SocketAddr} {n : ℕ} {l : Lane} {a b : Abs}

lemma slots_place (t : SlotTable) (s : KeySlot) :
    ∃ i, (t.place s).slots = Function.update t.slots i (some s) := by
  unfold SlotTable.place
  split
  · exact ⟨0, rfl⟩
  · exact ⟨_, rfl⟩

lemma slots_promoteSlot (t : SlotTable) (keyId : UInt8) :
    (t.promoteSlot keyId).2.slots = t.slots := by
  unfold SlotTable.promoteSlot
  split <;> rfl

def Effect.ofKeys : Effect → Bool
  | .installed _ | .sealed .. | .opened .. => true
  | _ => false

lemma keys_of_silent {e : Effect} (he : e.ofKeys = false) (hs : b.table.slots = a.table.slots)
    (hl : b.log = a.log ++ [e]) : b.keys = a.keys := by
  have hi : Javs.installs b.log = Javs.installs a.log := by
    rw [hl, installs_append]
    cases e <;> first | exact List.append_nil _ | cases he
  have hseal : e.sealed? = none := by cases e <;> first | rfl | cases he
  have hopen : e.opened? = none := by cases e <;> first | rfl | cases he
  unfold Abs.keys
  rw [hi, hs, hl]
  simp [hseal, hopen]

lemma keys_install {slot : KeySlot} {i : Fin 2}
    (hs : b.table.slots = Function.update a.table.slots i (some slot))
    (hl : b.log = a.log ++ [.installed slot]) :
    b.keys = { a.keys with slots := Function.update a.keys.slots i (some slot),
                           installs := a.keys.installs ++ [slot] } := by
  unfold Abs.keys
  rw [hs, hl, installs_append]
  simp [Javs.installs, Effect.sealed?, Effect.opened?]

lemma Move.keys (h : Move S addr n l a b) : b.keys = a.keys ∨ Turn S.prims a.keys b.keys := by
  cases h with
  | keyed | established | closed => exact .inl rfl
  | installed _ slot hs hk hf hn =>
    obtain ⟨i, hi⟩ := slots_place a.table slot
    rw [keys_install hi rfl]
    exact .inr (.install _ i slot hf)
  | rkInstalled _ t slot h hs hk hf =>
    rw [keys_install rfl rfl]
    exact .inr (.install _ _ slot hf)
  | rkFinished _ t h hs => exact .inl (keys_of_silent rfl (slots_promoteSlot _ _) rfl)
  | _ => exact .inl (keys_of_silent rfl rfl rfl)

lemma keys_moves (h : ReflTransGen (Move S addr n l) a b) :
    ReflTransGen (Turn S.prims) a.keys b.keys := by
  induction h with
  | refl => exact .refl
  | tail _ hm ih =>
    rcases hm.keys with e | ht
    · rw [e]; exact ih
    · exact ih.tail ht

lemma keys_tell {e : Effect} (he : e.ofKeys = false) (a : Abs) : (a.tell e).keys = a.keys :=
  keys_of_silent he rfl rfl

lemma keys_build {e : Effect} (he : e.ofKeys = false) (a : Abs) : (a.build e).keys = a.keys :=
  keys_of_silent he rfl rfl

lemma keys_hear (a : Abs) (ctrl : ControlPacket) : (a.hear ctrl).keys = a.keys := by
  unfold Abs.hear
  split
  · rfl
  · exact keys_tell rfl a

lemma keys_seal {slot : KeySlot} (ha : (b.seal slot).MayWire a) :
    a.keys = { b.keys with
      slots := Function.update b.keys.slots b.table.activeSlotIdx
        (some { slot with dataPidOut := slot.dataPidOut + 1 })
      seals := b.keys.seals ++ [(slot.cipher, slot.dataPidOut)] } := by
  have hseal : a.keys = (b.seal slot).keys := by
    rcases ha with rfl | ⟨bytes, rfl⟩
    · rfl
    · exact keys_tell rfl _
  rw [hseal]
  simp [Abs.keys, Abs.seal, Javs.installs, Effect.sealed?, Effect.opened?, SlotTable.setSlot]

lemma activeSlot_seal {slot : KeySlot} (ha : (b.seal slot).MayWire a) :
    a.table.activeSlot = some { slot with dataPidOut := slot.dataPidOut + 1 } := by
  rcases ha with rfl | ⟨bytes, rfl⟩ <;> exact Function.update_self ..

lemma turn_seal {w : World Conn} {slot : KeySlot} (hs : w.sess.activeSlot = some slot)
    (ha : (w.abs.seal slot).MayWire a) : Turn S.prims w.abs.keys a.keys := by
  rw [keys_seal ha]
  exact .sealing _ _ slot hs

lemma turn_open {w : World Conn} {pkt plaintext : Bytes} {dp : DataPacketV2} {i : Fin 2}
    {slot : KeySlot} (h : Opens S w pkt dp i slot plaintext) :
    Turn S.prims w.abs.keys (w.opened pkt dp i slot).abs.keys := by
  have hopen : (w.opened pkt dp i slot).abs.keys =
      { w.abs.keys with
        slots := Function.update w.abs.keys.slots i
          (some { slot with replay := (slot.replay.checkAndSet dp.packetId).2 })
        opens := w.abs.keys.opens ++ [(slot.cipher, dp.packetId, pkt)] } := by
    simp [Abs.keys, World.opened, Javs.installs, Effect.sealed?, Effect.opened?,
      SlotTable.setSlot, World.abs]
  obtain ⟨aad, ha, ho⟩ := h.authentic
  rw [hopen]
  exact .opening _ i slot dp.packetId pkt h.found h.fresh ⟨dp, aad, plaintext, h.parse, rfl, ha, ho⟩

lemma Reacts.keys {w : World Conn} {e : Event Conn} (h : Reacts S addr w e a) :
    ReflTransGen (Turn S.prims) w.abs.keys a.keys := by
  cases h with
  | main h hop hr hm =>
    have hk := keys_moves hm
    rw [keys_tell rfl, keys_hear] at hk
    exact hk
  | rekeying h hop t hr hk' hm =>
    have hk := keys_moves hm
    rw [keys_tell rfl, keys_hear] at hk
    exact hk
  | softReset h hop hr hs reply hp hm =>
    have hk := keys_moves hm
    rw [keys_build rfl] at hk
    exact (keys_hear w.abs _) ▸ hk
  | heard h hop => rw [keys_hear]
  -- opening turns the history by one step, whether or not the plaintext goes on
  | opened dp i slot plaintext h => exact .single (turn_open h)
  | forwarded dp i slot plaintext h =>
    rw [keys_tell rfl]
    exact .single (turn_open h)
  | tun slot h ha => exact .single (turn_seal h ha)
  | ping slot h ha => exact .single (turn_seal h ha)
  | rekey hr hs pkt hp hm =>
    have hk := keys_moves hm
    rw [keys_build rfl] at hk
    exact hk
  | retransmit hm => exact keys_moves hm
  | shutdown hm => exact keys_moves hm
  | _ => exact .refl

/-- **Every run is a history of keys.** -/
theorem keys_run (S : VpnServer Conn) (addr : SocketAddr) (w : World Conn)
    (es : List (Event Conn)) :
    ReflTransGen (Turn S.prims) w.abs.keys (run (step S addr) w es).abs.keys := by
  induction es generalizing w with
  | nil => exact .refl
  | cons e es ih => exact (step_reacts S addr w e).keys.trans (ih _)

def KeyView.empty : KeyView := ⟨fun _ => none, [], [], []⟩

lemma keys_started (S : VpnServer Conn) (o : Opening Conn) :
    ReflTransGen (Turn S.prims) .empty (started S o).abs.keys := by
  obtain ⟨reply, -, hm⟩ := started_moves S ⟨.v4 0, 0⟩ o
  have hk := keys_moves hm
  rw [keys_build rfl] at hk
  exact hk

end Runs

/-! ### Distinct keys -/

/-- The slots installed hold distinct keys, `key` being one of a cipher's two. -/
def KeyView.Distinct (key : DataCipher → Bytes) (v : KeyView) : Prop :=
  (v.installs.map fun s => key s.cipher).Nodup

variable {p : Primitives} {key : DataCipher → Bytes} {v v' : KeyView}

lemma Turn.distinct (h : Turn p v v') (hd : v'.Distinct key) : v.Distinct key := by
  cases h with
  | install i slot hf =>
    unfold KeyView.Distinct at hd ⊢
    rw [List.map_append] at hd
    exact (List.nodup_append.mp hd).1
  | _ => exact hd

theorem history_keeps {I : KeyView → Prop} {v₀ : KeyView}
    (hstep : ∀ v v', Turn p v v' → v'.Distinct key → I v → I v') (h0 : I v₀)
    (h : ReflTransGen (Turn p) v₀ v) (hd : v.Distinct key) : I v := by
  induction h with
  | refl => exact h0
  | tail _ ht ih => exact hstep _ _ ht hd (ih (ht.distinct hd))

/-- Everything in the two positions and in the records goes back to an install, and the two
positions hold different keys. -/
structure Lineage (key : DataCipher → Bytes) (v : KeyView) : Prop where
  known : ∀ i s, v.slots i = some s → s.cipher ∈ v.installs.map KeySlot.cipher
  apart : ∀ i j s t, v.slots i = some s → v.slots j = some t → key s.cipher = key t.cipher → i = j
  sealed : ∀ x ∈ v.seals, x.1 ∈ v.installs.map KeySlot.cipher
  opened : ∀ x ∈ v.opens, x.1 ∈ v.installs.map KeySlot.cipher

lemma lineage_empty : Lineage key .empty where
  known _ _ h := by cases h
  apart _ _ _ _ h := by cases h
  sealed := by simp [KeyView.empty]
  opened := by simp [KeyView.empty]

lemma Distinct.fresh {slot : KeySlot} {i : Fin 2}
    (hd : KeyView.Distinct key { v with slots := Function.update v.slots i (some slot),
                                        installs := v.installs ++ [slot] })
    {c : DataCipher} (hc : c ∈ v.installs.map KeySlot.cipher) : key c ≠ key slot.cipher := by
  intro he
  unfold KeyView.Distinct at hd
  rw [List.map_append] at hd
  refine (List.nodup_append.mp hd).2.2 (key c) ?_ (key slot.cipher) (by simp) he
  obtain ⟨s, hs, rfl⟩ := List.mem_map.mp hc
  exact List.mem_map_of_mem (f := fun s => key s.cipher) hs

lemma eq_some_of_update {f : Fin 2 → Option KeySlot} {i j : Fin 2} {s t : KeySlot}
    (h : Function.update f i (some t) j = some s) : j = i ∧ s = t ∨ j ≠ i ∧ f j = some s := by
  by_cases hj : j = i
  · subst hj
    rw [Function.update_self, Option.some_inj] at h
    exact .inl ⟨rfl, h.symm⟩
  · rw [Function.update_of_ne hj] at h
    exact .inr ⟨hj, h⟩

lemma Lineage.install (h : Lineage key v) {slot : KeySlot} {i : Fin 2}
    (hd : KeyView.Distinct key { v with slots := Function.update v.slots i (some slot),
                                        installs := v.installs ++ [slot] }) :
    Lineage key { v with slots := Function.update v.slots i (some slot),
                         installs := v.installs ++ [slot] } where
  known j s hj := by
    rw [List.map_append]
    rcases eq_some_of_update hj with ⟨-, rfl⟩ | ⟨-, hj⟩
    · simp
    · exact List.mem_append_left _ (h.known j s hj)
  apart j k s t hj hk hkey := by
    rcases eq_some_of_update hj with ⟨rfl, rfl⟩ | ⟨-, hj'⟩ <;>
      rcases eq_some_of_update hk with ⟨rfl, rfl⟩ | ⟨-, hk'⟩
    · rfl
    -- the key of the new slot is among no earlier installs, the other slot goes back to one
    · exact absurd hkey.symm (Distinct.fresh hd (h.known k t hk'))
    · exact absurd hkey (Distinct.fresh hd (h.known j s hj'))
    · exact h.apart j k s t hj' hk' hkey
  sealed x hx := by
    rw [List.map_append]
    exact List.mem_append_left _ (h.sealed x hx)
  opened x hx := by
    rw [List.map_append]
    exact List.mem_append_left _ (h.opened x hx)

lemma cipher_of_update {s t slot : KeySlot} {i j : Fin 2} (hs : v.slots i = some slot)
    (hc : t.cipher = slot.cipher) (h : Function.update v.slots i (some t) j = some s) :
    ∃ s₀, v.slots j = some s₀ ∧ s₀.cipher = s.cipher := by
  rcases eq_some_of_update h with ⟨rfl, rfl⟩ | ⟨-, h⟩
  · exact ⟨slot, hs, hc.symm⟩
  · exact ⟨s, h, rfl⟩

lemma Lineage.use (h : Lineage key v) {t slot : KeySlot} {i : Fin 2}
    (hs : v.slots i = some slot) (hc : t.cipher = slot.cipher) :
    Lineage key { v with slots := Function.update v.slots i (some t) } where
  known j s hj := by
    obtain ⟨s₀, h0, hc0⟩ := cipher_of_update hs hc hj
    exact hc0 ▸ h.known j s₀ h0
  apart j k s u hj hk hkey := by
    obtain ⟨s₀, h0, hc0⟩ := cipher_of_update hs hc hj
    obtain ⟨u₀, h1, hc1⟩ := cipher_of_update hs hc hk
    exact h.apart j k s₀ u₀ h0 h1 (by rw [hc0, hc1, hkey])
  sealed := h.sealed
  opened := h.opened

lemma Lineage.turn (ht : Turn p v v') (hd : v'.Distinct key) (h : Lineage key v) :
    Lineage key v' := by
  cases ht with
  | install i slot hf => exact h.install hd
  | sealing i slot hs =>
    obtain ⟨h1, h2, h3, h4⟩ := h.use (t := { slot with dataPidOut := slot.dataPidOut + 1 }) hs rfl
    refine ⟨h1, h2, fun x hx => ?_, h4⟩
    rcases List.mem_append.mp hx with hx | hx
    · exact h3 x hx
    · rw [List.mem_singleton.mp hx]
      exact h.known i slot hs
  | opening i slot pid wire hs hp ha =>
    obtain ⟨h1, h2, h3, h4⟩ := h.use
      (t := { slot with replay := (slot.replay.checkAndSet pid).2 }) hs rfl
    refine ⟨h1, h2, h3, fun x hx => ?_⟩
    rcases List.mem_append.mp hx with hx | hx
    · exact h4 x hx
    · rw [List.mem_singleton.mp hx]
      exact h.known i slot hs

lemma cipher_eq_of_key (hd : v.Distinct key) {c d : DataCipher}
    (hc : c ∈ v.installs.map KeySlot.cipher) (hd' : d ∈ v.installs.map KeySlot.cipher)
    (h : key c = key d) : c = d := by
  obtain ⟨s, hs, rfl⟩ := List.mem_map.mp hc
  obtain ⟨t, ht, rfl⟩ := List.mem_map.mp hd'
  rw [List.inj_on_of_nodup_map hd hs ht h]

end Javs
