import Javs.KeyHistory

/-!
Inbound data packets are used once.

A packet that opened is barred from the replay window of every slot that holds its key, for
as long as such a slot exists; and a packet opens under no other key. Windows start empty
and key ids recur, but a new slot also has a new key.
-/

namespace Javs

open Lib Lib.Proc Relation

variable {Conn : Type} {p : Primitives} {v v' : KeyView}

lemma isSome_of_open' {c : DataCipher} {pid : UInt32} {aad wire plaintext : Bytes}
    (h : c.open' p pid aad wire = .ok plaintext) :
    (p.gcmDecrypt c.decKey (c.openNonce pid) aad
      (wire.drop tagSize ++ wire.take tagSize)).isSome := by
  rcases Nat.lt_or_ge wire.length tagSize with hlt | hle
  · rw [DataCipher.open'_of_lt p c pid aad hlt] at h
    cases h
  · rw [DataCipher.open'_of_le p c pid aad hle] at h
    split at h
    · cases h
    · rename_i hd
      rw [hd]
      rfl

lemma Authentic.unique (hp : p.OpensOnce) {c d : DataCipher} {pid qid : UInt32} {wire : Bytes}
    (hc : Authentic p c pid wire) (hd : Authentic p d qid wire) :
    c.decKey = d.decKey ∧ pid = qid := by
  obtain ⟨dp, aad, pt, h1, rfl, h2, h3⟩ := hc
  obtain ⟨dq, aad', pt', h1', rfl, h2', h3'⟩ := hd
  rw [h1, Except.ok.injEq] at h1'
  rw [h2, Except.ok.injEq] at h2'
  subst h1' h2'
  exact ⟨(hp _ _ _ _ _ _ _ (isSome_of_open' h3) (isSome_of_open' h3')).1, rfl⟩

/-- What the slots still know of the packets opened. -/
structure Guarded (p : Primitives) (v : KeyView) : Prop where
  barred : ∀ i s, v.slots i = some s → ∀ x ∈ v.opens, x.1.decKey = s.cipher.decKey →
    s.replay.Barred x.2.1
  authentic : ∀ x ∈ v.opens, Authentic p x.1 x.2.1 x.2.2
  once : (v.opens.map (·.2.2)).Nodup

lemma guarded_empty : Guarded p .empty :=
  ⟨fun _ _ h => (by cases h), by simp [KeyView.empty], List.nodup_nil⟩

lemma Guarded.new (hp : p.OpensOnce) (h : Guarded p v) {i : Fin 2} {slot : KeySlot} {pid : UInt32}
    {wire : Bytes} (hs : v.slots i = some slot) (hc : (slot.replay.checkAndSet pid).1 = true)
    (ha : Authentic p slot.cipher pid wire) : wire ∉ v.opens.map (·.2.2) := by
  intro hmem
  obtain ⟨x, hx, rfl⟩ := List.mem_map.mp hmem
  obtain ⟨hkey, hpid⟩ := (h.authentic x hx).unique hp ha
  have hbar := h.barred i slot hs x hx hkey
  rw [hpid] at hbar
  exact ((slot.replay.checkAndSet_fst pid).mp hc).2 hbar

lemma Guarded.turn (hp : p.OpensOnce) (ht : Turn p v v') (hd : v'.Distinct DataCipher.decKey)
    (hl : Lineage DataCipher.decKey v) (h : Guarded p v) : Guarded p v' := by
  cases ht with
  | install i slot hf =>
    refine ⟨fun j s hj x hx hkey => ?_, h.authentic, h.once⟩
    rcases eq_some_of_update hj with ⟨rfl, rfl⟩ | ⟨-, hj'⟩
    -- a new slot has a key of its own, under which nothing has been opened
    · exact absurd hkey (Distinct.fresh hd (hl.opened x hx))
    · exact h.barred j s hj' x hx hkey
  | sealing i slot hs =>
    refine ⟨fun j s hj x hx hkey => ?_, h.authentic, h.once⟩
    rcases eq_some_of_update hj with ⟨rfl, rfl⟩ | ⟨-, hj'⟩
    · exact h.barred j slot hs x hx hkey
    · exact h.barred j s hj' x hx hkey
  | opening i slot pid wire hs hc ha =>
    refine ⟨fun j s hj x hx hkey => ?_, fun x hx => ?_, ?_⟩
    · rcases eq_some_of_update hj with ⟨rfl, rfl⟩ | ⟨hji, hj'⟩ <;>
        rcases List.mem_append.mp hx with hx | hx
      -- barred ids stay barred in the window that is moved, and the id just checked joins them
      · exact (h.barred j slot hs x hx hkey).checkAndSet pid
      · rw [List.mem_singleton.mp hx]
        exact ReplayWindow.barred_checkAndSet_self hc
      · exact h.barred j s hj' x hx hkey
      · rw [List.mem_singleton.mp hx] at hkey
        exact absurd (hl.apart i j slot s hs hj' hkey).symm hji
    · rcases List.mem_append.mp hx with hx | hx
      · exact h.authentic x hx
      · rw [List.mem_singleton.mp hx]
        exact ha
    · rw [List.map_append, List.map_singleton, ← List.concat_eq_append, List.nodup_concat]
      exact ⟨h.new hp hs hc ha, h.once⟩

lemma guarded_of_history (hp : p.OpensOnce) (h : ReflTransGen (Turn p) .empty v)
    (hd : v.Distinct DataCipher.decKey) : Guarded p v :=
  (history_keeps (I := fun v => Lineage DataCipher.decKey v ∧ Guarded p v)
    (fun _ _ ht hd h => ⟨h.1.turn ht hd, h.2.turn hp ht hd h.1⟩)
    ⟨lineage_empty, guarded_empty⟩ h hd).2

/-! ### Forwarding -/

def Effect.tunned? : Effect → Option Bytes
  | .tun pkt _ => some pkt
  | _ => none

def forwarded (log : List Effect) : List Bytes := log.filterMap Effect.tunned?

def Effect.data? : Effect → Option (Bytes ⊕ Bytes)
  | .opened _ _ pkt => some (.inl pkt)
  | .tun pkt _ => some (.inr pkt)
  | _ => none

lemma data?_of_move (e : Effect) (he : e.ofEvent = false) : e.data? = none := by
  cases e <;> first | rfl | cases he

lemma data?_ackOf (ctrl : ControlPacket) : (ackOf ctrl).filterMap Effect.data? = [] := by
  unfold ackOf
  split <;> rfl

def Backed (l : List (Bytes ⊕ Bytes)) : Prop :=
  (l.filterMap Sum.getRight?).Sublist (l.filterMap Sum.getLeft?)

lemma backed_append {l m : List (Bytes ⊕ Bytes)} (hl : Backed l) (hm : Backed m) :
    Backed (l ++ m) := by
  unfold Backed at *
  rw [List.filterMap_append, List.filterMap_append]
  exact hl.append hm

lemma backed_step (S : VpnServer Conn) (addr : SocketAddr) (w : World Conn) (e : Event Conn)
    (h : Backed (w.log.filterMap Effect.data?)) :
    Backed ((step S addr w e).log.filterMap Effect.data?) := by
  obtain ⟨es, ho, hl⟩ := (step_reacts S addr w e).own data?_of_move
  change Backed ((step S addr w e).abs.log.filterMap Effect.data?)
  rw [hl]
  refine backed_append h ?_
  cases ho with
  | fed h hop =>
    rw [List.filterMap_append, data?_ackOf]
    exact List.Sublist.refl _
  | heard h hop =>
    rw [data?_ackOf]
    exact List.Sublist.refl _
  | opened dp i slot plaintext h => exact List.nil_sublist _
  | _ => exact List.Sublist.refl _

lemma forwarded_eq (log : List Effect) :
    forwarded log = (log.filterMap Effect.data?).filterMap Sum.getRight? := by
  rw [forwarded, List.filterMap_filterMap]
  exact congrArg (fun f => log.filterMap f) (funext fun e => by cases e <;> rfl)

lemma opens_eq (log : List Effect) :
    (log.filterMap Effect.opened?).map (·.2.2) =
      (log.filterMap Effect.data?).filterMap Sum.getLeft? := by
  rw [List.map_filterMap, List.filterMap_filterMap]
  exact congrArg (fun f => log.filterMap f) (funext fun e => by cases e <;> rfl)

lemma forwarded_sublist (S : VpnServer Conn) (addr : SocketAddr) (o : Opening Conn)
    (es : List (Event Conn)) :
    (forwarded (run (step S addr) (started S o) es).log).Sublist
      ((run (step S addr) (started S o) es).abs.keys.opens.map (·.2.2)) := by
  have h0 : Backed ((started S o).log.filterMap Effect.data?) := by
    rw [filterMap_started data?_of_move]
    exact List.Sublist.refl _
  have h : Backed ((run (step S addr) (started S o) es).log.filterMap Effect.data?) :=
    run_invariant (I := fun w => Backed (w.log.filterMap Effect.data?))
      (fun w e => backed_step S addr w e) h0
  rw [forwarded_eq]
  exact (opens_eq _) ▸ h

/-- Why `decrypt_and_forward` turns a packet down before it is used. -/
inductive Rejects (S : VpnServer Conn) (w : World Conn) (pkt : Bytes) : Prop
  | malformed (e) (h : DataPacketV2.parse pkt = .error e)
  | unknownKeyId (dp) (hp : DataPacketV2.parse pkt = .ok dp)
      (h : w.sess.slotByKeyId dp.keyId = none)
  | unauthentic (dp aad slot e) (hp : DataPacketV2.parse pkt = .ok dp)
      (ha : Bytes.slice pkt 0 8 = .ok aad) (hs : w.sess.slotByKeyId dp.keyId = some slot)
      (h : slot.cipher.open' S.prims dp.packetId aad dp.ciphertext = .error e)
  | replayed (dp slot) (hp : DataPacketV2.parse pkt = .ok dp)
      (hs : w.sess.slotByKeyId dp.keyId = some slot)
      (h : (slot.replay.checkAndSet dp.packetId).1 = false)

lemma Opens.not_rejects {S : VpnServer Conn} {w : World Conn} {pkt plaintext : Bytes}
    {dp : DataPacketV2} {i : Fin 2} {slot : KeySlot} (h : Opens S w pkt dp i slot plaintext) :
    ¬ Rejects S w pkt := by
  have hslot : w.sess.slotByKeyId dp.keyId = some slot := by
    rw [SlotTable.slotByKeyId, h.position]
    exact h.found
  obtain ⟨aad, ha, ho⟩ := h.authentic
  rintro (⟨e, he⟩ | ⟨dq, hp, hn⟩ | ⟨dq, aad', t, e, hp, ha', ht, he⟩ | ⟨dq, t, hp, ht, hr⟩)
  · rw [h.parse] at he
    cases he
  · rw [h.parse, Except.ok.injEq] at hp
    rw [← hp, hslot] at hn
    cases hn
  · rw [h.parse, Except.ok.injEq] at hp
    rw [← hp, hslot, Option.some_inj] at ht
    rw [ha, Except.ok.injEq] at ha'
    rw [← hp, ← ht, ← ha', ho] at he
    cases he
  · rw [h.parse, Except.ok.injEq] at hp
    rw [← hp, hslot, Option.some_inj] at ht
    rw [← hp, ← ht, h.fresh] at hr
    cases hr

/-- **Data packets are forwarded at most once, and rejected ones leave no trace.** -/
theorem forwarded_once (S : VpnServer Conn) (addr : SocketAddr) (o : Opening Conn)
    (es : List (Event Conn)) (hp : S.prims.OpensOnce)
    (hd : (run (step S addr) (started S o) es).abs.keys.Distinct DataCipher.decKey) :
    (forwarded (run (step S addr) (started S o) es).log).Nodup ∧
      ∀ w env pkt, Rejects S w pkt →
        (∃ e, (decryptAndForward S pkt { w with env }).1 = .error e) ∧
          (step S addr w (.data env pkt)).sess = w.sess := by
  constructor
  · have hist := (keys_started S o).trans (keys_run S addr (started S o) es)
    exact (guarded_of_history hp hist hd).once.sublist (forwarded_sublist S addr o es)
  · intro w env pkt hr
    rcases decryptAndForward_cases (S := S) { w with env } pkt with
      ⟨e, h⟩ | ⟨dp, i, slot, pt, ho, -⟩
    · rw [step, h]
      exact ⟨⟨e, rfl⟩, rfl⟩
    · exact absurd hr (Opens.not_rejects (w := w) ⟨ho.1, ho.2, ho.3, ho.4, ho.5⟩)

def clientData (pid : UInt32) (text : Bytes) : Bytes :=
  let key := List.replicate 32 3
  let iv := List.replicate 8 3
  let header := Session.dataHeader 1 0 pid
  match DataCipher.seal' plainPrims ⟨key, key, iv, iv⟩ pid header text with
  | .ok ct => header ++ ct
  | .error _ => []

theorem forwarded_once_plain :
    forwarded (run (step plainServer plainAddr) (started plainServer plainOpening)
        [establishing, .data (plainEnv 1) (clientData 1 [0x45, 0]),
          .data (plainEnv 1) (clientData 1 [0x45, 0])]).log = [clientData 1 [0x45, 0]] ∧
      (forwarded (run (step plainServer plainAddr) (started plainServer plainOpening)
        [establishing, .data (plainEnv 1) (clientData 1 [0x45, 0]),
          .data (plainEnv 1) (clientData 1 [0x45, 0])]).log).Nodup :=
  ⟨by decide +kernel, (forwarded_once plainServer plainAddr plainOpening _ opensOnce_plainPrims
    (by unfold KeyView.Distinct; decide +kernel)).1⟩

end Javs
