import Javs.KeyHistory

/-!
Nonces of the data channel.

The nonce of a seal is the packet id and the slot's IV, so under one key it repeats exactly
when the packet id does. The counter of a slot starts at 1 and is bumped with wrap-around:
it counts the seals under the key modulo 2³².
-/

namespace Javs

open Lib Relation

variable {Conn : Type} {p : Primitives} {v v' : KeyView}

def sealsUnder (key : Bytes) (seals : List (DataCipher × UInt32)) : List UInt32 :=
  (seals.filter (·.1.encKey = key)).map Prod.snd

lemma sealsUnder_snoc (key : Bytes) (seals : List (DataCipher × UInt32)) (c : DataCipher)
    (pid : UInt32) :
    sealsUnder key (seals ++ [(c, pid)]) =
      if c.encKey = key then sealsUnder key seals ++ [pid] else sealsUnder key seals := by
  unfold sealsUnder
  split <;> simp_all

/-- No `seal` repeats a nonce under its key, and none uses packet id 0. -/
def KeyView.NonceOnce (v : KeyView) : Prop :=
  (v.seals.map fun x => (x.1.encKey, x.1.sealNonce x.2)).Nodup ∧ ∀ x ∈ v.seals, x.2 ≠ 0

/-- Under every key the packet ids count up from 1, and its slot knows the next one. -/
structure Counted (v : KeyView) : Prop where
  pids : ∀ k, sealsUnder k v.seals =
    (List.range (sealsUnder k v.seals).length).map fun i => UInt32.ofNat (i + 1)
  next : ∀ i s, v.slots i = some s →
    s.dataPidOut = UInt32.ofNat ((sealsUnder s.cipher.encKey v.seals).length + 1)

lemma counted_empty : Counted .empty := ⟨fun _ => rfl, fun _ _ h => by cases h⟩

lemma Counted.turn (ht : Turn p v v') (hd : v'.Distinct DataCipher.encKey)
    (hl : Lineage DataCipher.encKey v) (h : Counted v) : Counted v' := by
  cases ht with
  | install i slot hf =>
    refine ⟨h.pids, fun j s hj => ?_⟩
    rcases eq_some_of_update hj with ⟨rfl, rfl⟩ | ⟨-, hj'⟩
    · -- nothing was sealed under a key that is new
      have hnone : sealsUnder s.cipher.encKey v.seals = [] := by
        rw [sealsUnder, List.map_eq_nil_iff, List.filter_eq_nil_iff]
        intro x hx
        simpa using Distinct.fresh hd (hl.sealed x hx)
      rw [hf.1, hnone]
      rfl
    · exact h.next j s hj'
  | sealing i slot hs =>
    have hpid := h.next i slot hs
    refine ⟨fun k => ?_, fun j s hj => ?_⟩
    · rw [sealsUnder_snoc]
      split
      · rename_i hk
        rw [List.length_append, List.length_singleton, List.range_succ, List.map_append,
          ← h.pids k, hpid, hk]
        rfl
      · exact h.pids k
    · rw [sealsUnder_snoc]
      rcases eq_some_of_update hj with ⟨rfl, rfl⟩ | ⟨hji, hj'⟩
      · rw [if_pos rfl, List.length_append, List.length_singleton, UInt32.ofNat_add]
        exact congrArg (· + 1) hpid
      -- two live slots with the same key are one slot, so this one was not sealed under
      · have hne : slot.cipher.encKey ≠ s.cipher.encKey := fun he =>
          hji (hl.apart i j slot s hs hj' he).symm
        rw [if_neg hne]
        exact h.next j s hj'
  | opening i slot pid wire hs hp ha =>
    refine ⟨h.pids, fun j s hj => ?_⟩
    rcases eq_some_of_update hj with ⟨rfl, rfl⟩ | ⟨-, hj'⟩
    · exact h.next j slot hs
    · exact h.next j s hj'

lemma counted_of_history (h : ReflTransGen (Turn p) .empty v)
    (hd : v.Distinct DataCipher.encKey) : Lineage DataCipher.encKey v ∧ Counted v :=
  history_keeps (I := fun v => Lineage DataCipher.encKey v ∧ Counted v)
    (fun _ _ ht hd h => ⟨h.1.turn ht hd, h.2.turn ht hd h.1⟩) ⟨lineage_empty, counted_empty⟩ h hd

/-! ### When nonces repeat -/

section Iff

variable (hd : v.Distinct DataCipher.encKey) (hl : Lineage DataCipher.encKey v) (hc : Counted v)

include hc in
lemma mem_sealsUnder_iff {k : Bytes} {pid : UInt32} :
    pid ∈ sealsUnder k v.seals ↔
      ∃ i < (sealsUnder k v.seals).length, UInt32.ofNat (i + 1) = pid := by
  conv_lhs => rw [hc.pids k]
  simp

include hc in
lemma zero_mem_sealsUnder {k : Bytes} (h : 2 ^ 32 ≤ (sealsUnder k v.seals).length) :
    (0 : UInt32) ∈ sealsUnder k v.seals :=
  (mem_sealsUnder_iff hc).mpr ⟨2 ^ 32 - 1, by omega, rfl⟩

include hc in
lemma sealsUnder_nodup {k : Bytes} (h : (sealsUnder k v.seals).length < 2 ^ 32) :
    (sealsUnder k v.seals).Nodup := by
  rw [hc.pids k]
  refine List.Nodup.map_on (fun i hi j hj hij => ?_) List.nodup_range
  have hij' := congrArg UInt32.toNat hij
  rw [UInt32.toNat_ofNat', UInt32.toNat_ofNat'] at hij'
  rw [List.mem_range] at hi hj
  omega

include hd hl in
lemma nonces_nodup (h : ∀ k, (sealsUnder k v.seals).Nodup) :
    (v.seals.map fun x => (x.1.encKey, x.1.sealNonce x.2)).Nodup := by
  rw [List.Nodup, List.pairwise_map, List.pairwise_iff_getElem]
  intro i j hi hj hij he
  have hkey : v.seals[i].1.encKey = v.seals[j].1.encKey := congrArg Prod.fst he
  have hcipher : v.seals[i].1 = v.seals[j].1 := cipher_eq_of_key hd
    (hl.sealed _ (List.getElem_mem hi)) (hl.sealed _ (List.getElem_mem hj)) hkey
  have hnonce : v.seals[i].1.sealNonce v.seals[i].2 = v.seals[j].1.sealNonce v.seals[j].2 :=
    congrArg Prod.snd he
  have hpid : v.seals[i].2 = v.seals[j].2 := by
    rw [hcipher, DataCipher.sealNonce, DataCipher.sealNonce, List.append_cancel_right_eq] at hnonce
    exact Bytes.putU32_injective hnonce
  have hpairs := h v.seals[i].1.encKey
  rw [sealsUnder, List.Nodup, List.pairwise_map, List.pairwise_filter,
    List.pairwise_iff_getElem] at hpairs
  exact hpairs i j hi hj hij (by simp) (by simp [hkey]) hpid

include hd hl hc in
lemma nonceOnce_iff :
    v.NonceOnce ↔ ∀ k, (sealsUnder k v.seals).length < 2 ^ 32 := by
  constructor
  · rintro ⟨-, h0⟩ k
    by_contra hk
    have hz := zero_mem_sealsUnder hc (k := k) (by omega)
    obtain ⟨x, hx, hx0⟩ := List.mem_map.mp hz
    exact h0 x (List.mem_filter.mp hx).1 hx0
  · intro h
    refine ⟨nonces_nodup hd hl fun k => sealsUnder_nodup hc (h k), fun x hx hx0 => ?_⟩
    have hmem : x.2 ∈ sealsUnder x.1.encKey v.seals :=
      List.mem_map_of_mem (List.mem_filter.mpr ⟨hx, by simp⟩)
    obtain ⟨i, hi, hie⟩ := (mem_sealsUnder_iff hc).mp hmem
    have hlt := h x.1.encKey
    have hie' := congrArg UInt32.toNat hie
    rw [UInt32.toNat_ofNat', hx0] at hie'
    change (i + 1) % 2 ^ 32 = 0 at hie'
    omega

end Iff

/-- **Nonces are used once exactly below 2³² packets for each key.** -/
theorem nonceOnce_run_iff (S : VpnServer Conn) (addr : SocketAddr) (o : Opening Conn)
    (es : List (Event Conn))
    (hd : (run (step S addr) (started S o) es).abs.keys.Distinct DataCipher.encKey) :
    (run (step S addr) (started S o) es).abs.keys.NonceOnce ↔
      ∀ key, (sealsUnder key (run (step S addr) (started S o) es).abs.keys.seals).length <
        2 ^ 32 := by
  have hist := (keys_started S o).trans (keys_run S addr (started S o) es)
  obtain ⟨hl, hc⟩ := counted_of_history hist hd
  exact nonceOnce_iff hd hl hc

def plainTraffic (n : ℕ) : List (Event Plain) :=
  establishing :: List.replicate n (.tun (plainEnv 1) [0x45])

theorem nonceOnce_run_iff_plainTraffic :
    (run (step plainServer plainAddr) (started plainServer plainOpening)
      (plainTraffic 2)).abs.keys.NonceOnce := by
  obtain ⟨hd, hlen⟩ : (run (step plainServer plainAddr) (started plainServer plainOpening)
        (plainTraffic 2)).abs.keys.Distinct DataCipher.encKey ∧
      (run (step plainServer plainAddr) (started plainServer plainOpening)
        (plainTraffic 2)).abs.keys.seals.length = 2 := by
    unfold KeyView.Distinct
    decide +kernel
  refine (nonceOnce_run_iff plainServer plainAddr plainOpening (plainTraffic 2) hd).mpr
    fun key => ?_
  have hle : ∀ seals, (sealsUnder key seals).length ≤ seals.length := fun seals => by
    rw [sealsUnder, List.length_map]
    exact List.length_filter_le _ _
  have := hle (run (step plainServer plainAddr) (started plainServer plainOpening)
    (plainTraffic 2)).abs.keys.seals
  omega

lemma keys_tuns (S : VpnServer Conn) (addr : SocketAddr) {w : World Conn} {slot : KeySlot}
    (hs : w.sess.activeSlot = some slot) (env : Env Conn) (pkt : Bytes) (n : ℕ) :
    (run (step S addr) w (List.replicate n (.tun env pkt))).sess.activeSlot =
        some { slot with dataPidOut := slot.dataPidOut + UInt32.ofNat n } ∧
      (run (step S addr) w (List.replicate n (.tun env pkt))).abs.keys.installs =
        w.abs.keys.installs ∧
      (run (step S addr) w (List.replicate n (.tun env pkt))).abs.keys.seals =
        w.abs.keys.seals ++
          (List.range n).map fun i => (slot.cipher, slot.dataPidOut + UInt32.ofNat i) := by
  induction n with
  | zero => simpa using hs
  | succ n ih =>
    obtain ⟨h1, h2, h3⟩ := ih
    rw [List.replicate_succ', run_append, run_cons, run_nil]
    generalize run (step S addr) w (List.replicate n (.tun env pkt)) = u at h1 h2 h3
    have hw := forwardLocked_seals (S := S) (w := { u with env }) h1 pkt
    have hk := keys_seal hw
    refine ⟨?_, ?_, ?_⟩
    · refine (activeSlot_seal hw).trans ?_
      rw [UInt32.ofNat_add, ← UInt32.add_assoc]
      rfl
    · rw [step, hk]
      exact h2
    · rw [step, hk]
      change u.abs.keys.seals ++ _ = _
      rw [h3, List.range_succ, List.map_append, List.append_assoc]
      rfl

/-- After 2³² packets under one slot the packet id has been 0, and is 1 again. -/
theorem nonce_wraps :
    (run (step plainServer plainAddr) (started plainServer plainOpening)
        (plainTraffic (2 ^ 32 + 1))).abs.keys.Distinct DataCipher.encKey ∧
      ¬ ((run (step plainServer plainAddr) (started plainServer plainOpening)
        (plainTraffic (2 ^ 32 + 1))).abs.keys.seals.map
          fun x => (x.1.encKey, x.1.sealNonce x.2)).Nodup ∧
      ∃ x ∈ (run (step plainServer plainAddr) (started plainServer plainOpening)
        (plainTraffic (2 ^ 32 + 1))).abs.keys.seals, x.2 = 0 := by
  obtain ⟨w, hw⟩ : ∃ w, w = step plainServer plainAddr (started plainServer plainOpening)
    establishing := ⟨_, rfl⟩
  obtain ⟨hsome, hone, hnone⟩ : w.sess.activeSlot.map KeySlot.dataPidOut = some 1 ∧
      w.abs.keys.installs.length = 1 ∧ w.abs.keys.seals = [] := by
    rw [hw]
    decide +kernel
  obtain ⟨slot, hs, hpid⟩ := Option.map_eq_some_iff.mp hsome
  obtain ⟨-, hi, hse⟩ := keys_tuns plainServer plainAddr hs (plainEnv 1) [0x45] (2 ^ 32 + 1)
  rw [hnone, hpid, List.nil_append] at hse
  rw [plainTraffic, run_cons, ← hw]
  refine ⟨?_, ?_, ?_⟩
  · unfold KeyView.Distinct
    rw [hi]
    obtain ⟨s, hs⟩ := List.length_eq_one_iff.mp hone
    rw [hs]
    exact List.nodup_singleton _
  · rw [hse, List.map_map]
    intro hnd
    -- the packet ids sealed first and at index 2^32 are the same
    have hwrap : UInt32.ofNat (2 ^ 32) = UInt32.ofNat 0 := by decide
    have h := List.inj_on_of_nodup_map hnd (List.mem_range.mpr (show 2 ^ 32 < 2 ^ 32 + 1 by omega))
      (List.mem_range.mpr (show 0 < 2 ^ 32 + 1 by omega)) (by simp only [Function.comp, hwrap])
    omega
  · have hzero : 1 + UInt32.ofNat (2 ^ 32 - 1) = 0 := by decide
    rw [hse]
    have hlt : 2 ^ 32 - 1 < 2 ^ 32 + 1 := by omega
    exact ⟨_, List.mem_map_of_mem (List.mem_range.mpr hlt), hzero⟩

end Javs
