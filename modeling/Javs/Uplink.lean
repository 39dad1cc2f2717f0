import Javs.DataReplay
import Javs.Downlink

/-!
The way of a packet from the client to the TUN.

`decrypt_and_forward` looks up the slot of a packet's key id, opens the packet under it and
consults the replay window of the slot. The window moves with no other event, and a slot stays what
it is until it is overwritten. So towards each key generation a session is a receiver behind a
replay window, whatever else happens to it: what the client seals and what arrives in the order of
sealing goes to the TUN, all of it, and in any order nothing twice.
-/

namespace Javs

open Lib Lib.Proc Relation M Bytes

variable {Conn : Type}

/-- A data packet that has been taken: the slot as it was found, the datagram, the plaintext and
the packet id. -/
structure Uplink where
  slot : KeySlot
  wire : Bytes
  plaintext : Bytes
  packetId : UInt32

def World.slotFor (w : World Conn) (pkt : Bytes) : Option KeySlot :=
  (DataPacketV2.parse pkt).toOption.bind fun dp => w.sess.slotByKeyId dp.keyId

/-- What a session takes a datagram for. -/
def World.takes (S : VpnServer Conn) (w : World Conn) (pkt : Bytes) : Option Uplink :=
  (w.slotFor pkt).bind fun slot =>
    (slot.cipher.readData S.prims slot.keyId pkt).bind fun r =>
      if (slot.replay.checkAndSet r.2).1 then some ⟨slot, pkt, r.1, r.2⟩ else none

def World.uptakes (S : VpnServer Conn) (w : World Conn) : Event Conn → List Uplink
  | .data _ pkt => (w.takes S pkt).toList
  | _ => []

def uplinks (S : VpnServer Conn) (addr : SocketAddr) (w : World Conn) (es : List (Event Conn)) :
    List Uplink :=
  (trace (step S addr) w es).flatMap fun x => x.1.uptakes S x.2

/-- The datagram an event brings to the slot that holds the cipher `c`. -/
def World.reaches (c : DataCipher) (w : World Conn) : Event Conn → List Bytes
  | .data _ pkt => if (w.slotFor pkt).map KeySlot.cipher = some c then [pkt] else []
  | _ => []

def reaching (S : VpnServer Conn) (addr : SocketAddr) (w : World Conn) (es : List (Event Conn))
    (c : DataCipher) : List Bytes :=
  (trace (step S addr) w es).flatMap fun x => x.1.reaches c x.2

def Effect.delivered? : Effect → Option (Bytes × Bytes)
  | .tun pkt plaintext => some (pkt, plaintext)
  | _ => none

def deliveries (log : List Effect) : List (Bytes × Bytes) := log.filterMap Effect.delivered?

/-- A packet that is taken goes to the TUN, unless it is a ping or the writer is gone. -/
def Uplink.delivers (tunOpen : Bool) (u : Uplink) : List (Bytes × Bytes) :=
  if u.plaintext ≠ pingPayload ∧ tunOpen then [(u.wire, u.plaintext)] else []

/-! ### One packet -/

section Packet

variable {S : VpnServer Conn} {w : World Conn} {pkt : Bytes}

lemma SlotTable.keyId_of_position {t : SlotTable} {keyId : UInt8} {i : Fin 2} {s : KeySlot}
    (h : t.position keyId = some i) (hs : t.slots i = some s) : s.keyId = keyId := by
  unfold SlotTable.position at h
  split at h
  · rename_i h0
    obtain rfl := Option.some.inj h
    rw [hs] at h0
    exact Option.some.inj h0
  · split at h
    · rename_i h1
      obtain rfl := Option.some.inj h
      rw [hs] at h1
      exact Option.some.inj h1
    · cases h

lemma slice_of_parse {dp : DataPacketV2} (h : DataPacketV2.parse pkt = .ok dp) :
    slice pkt 0 8 = .ok (pkt.take 8) := by
  have hlen := dataParse_ok h
  exact slice_of (x := []) (r := pkt.drop 8) (List.take_append_drop 8 pkt).symm rfl
    (by rw [Nat.zero_add, List.length_take_of_le hlen])

lemma Opens.takes {dp : DataPacketV2} {i : Fin 2} {slot : KeySlot} {plaintext : Bytes}
    (h : Opens S w pkt dp i slot plaintext) :
    w.takes S pkt = some ⟨slot, pkt, plaintext, dp.packetId⟩ := by
  obtain ⟨aad, haad, hopen⟩ := h.authentic
  obtain rfl := Except.ok.inj ((slice_of_parse h.parse).symm.trans haad)
  have hslot : w.slotFor pkt = some slot := by
    rw [World.slotFor, h.parse]
    show w.sess.slotByKeyId dp.keyId = some slot
    rw [SlotTable.slotByKeyId, h.position]
    exact h.found
  have hread : slot.cipher.readData S.prims slot.keyId pkt = some (plaintext, dp.packetId) := by
    simp only [DataCipher.readData, h.parse, hopen,
      if_pos (SlotTable.keyId_of_position h.position h.found).symm]
    rfl
  rw [World.takes, hslot, Option.bind_some, hread, Option.bind_some, if_pos h.fresh]

lemma opens_of_takes {u : Uplink} (h : w.takes S pkt = some u) :
    ∃ dp i, Opens S w pkt dp i u.slot u.plaintext ∧ u.packetId = dp.packetId ∧ u.wire = pkt := by
  obtain ⟨slot, hslot, h⟩ := Option.bind_eq_some_iff.mp h
  obtain ⟨⟨plaintext, pid⟩, hread, h⟩ := Option.bind_eq_some_iff.mp h
  split at h
  · rename_i hfresh
    obtain rfl := Option.some.inj h
    unfold World.slotFor at hslot
    rcases hparse : DataPacketV2.parse pkt with e | dp <;> rw [hparse] at hslot
    · cases hslot
    · obtain ⟨i, hpos, hfound⟩ := Option.bind_eq_some_iff.mp (show
        w.sess.slotByKeyId dp.keyId = some slot from hslot)
      have hkey := SlotTable.keyId_of_position hpos hfound
      simp only [DataCipher.readData, hparse, if_pos hkey.symm] at hread
      obtain ⟨plain, hplain, heq⟩ := Option.map_eq_some_iff.mp hread
      obtain ⟨rfl, rfl⟩ := Prod.mk.inj heq
      refine ⟨dp, i, ⟨hparse, hpos, hfound, ⟨_, slice_of_parse hparse, ?_⟩, hfresh⟩, rfl, rfl⟩
      rcases hopen : slot.cipher.open' S.prims dp.packetId (pkt.take 8) dp.ciphertext with e | t <;>
        rw [hopen] at hplain
      · cases hplain
      · exact congrArg Except.ok (Option.some.inj hplain)
  · cases h

lemma step_data_none (addr : SocketAddr) (env : Env Conn) (h : w.takes S pkt = none) :
    step S addr w (.data env pkt) = { w with env } := by
  rcases decryptAndForward_cases (S := S) { w with env } pkt with
    ⟨e, he⟩ | ⟨dp, i, slot, plaintext, ho, -⟩
  · rw [step, he]
  · have htakes : w.takes S pkt = _ := ho.takes
    rw [h] at htakes
    cases htakes

lemma step_data_some (addr : SocketAddr) (env : Env Conn) {u : Uplink}
    (h : w.takes S pkt = some u) :
    ∃ i, w.sess.slots i = some u.slot ∧
      (step S addr w (.data env pkt)).sess.slots = Function.update w.sess.slots i
        (some { u.slot with replay := (u.slot.replay.checkAndSet u.packetId).2 }) ∧
      (step S addr w (.data env pkt)).log = w.log ++ [.opened u.slot.cipher u.packetId pkt] ++
        (u.delivers env.tunOpen).map fun d => .tun d.1 d.2 := by
  obtain ⟨dp, i, hopens, hpid, hwire⟩ := opens_of_takes h
  refine ⟨i, hopens.found, ?_⟩
  have hopens' : Opens S { w with env } pkt dp i u.slot u.plaintext :=
    ⟨hopens.1, hopens.2, hopens.3, hopens.4, hopens.5⟩
  rw [step, decryptAndForward_opens hopens', hpid, Uplink.delivers, hwire]
  by_cases hping : u.plaintext = pingPayload
  · simp [hping, World.opened, SlotTable.setSlot]
  · by_cases htun : env.tunOpen = true <;> simp [hping, htun, World.opened, SlotTable.setSlot]

end Packet

/-! ### Slots over a history -/

section History

variable {p : Primitives} {v v' : KeyView}

lemma Turn.opens (h : Turn p v v') : v.opens <+: v'.opens ∧ v.installs <+: v'.installs := by
  cases h with
  | install => exact ⟨List.prefix_rfl, List.prefix_append _ _⟩
  | sealing => exact ⟨List.prefix_rfl, List.prefix_rfl⟩
  | opening => exact ⟨List.prefix_append _ _, List.prefix_rfl⟩

lemma opens_history (h : ReflTransGen (Turn p) v v') :
    v.opens <+: v'.opens ∧ v.installs <+: v'.installs := by
  induction h with
  | refl => exact ⟨List.prefix_rfl, List.prefix_rfl⟩
  | tail _ ht ih => exact ⟨ih.1.trans ht.opens.1, ih.2.trans ht.opens.2⟩

/-- A slot with the key id, the cipher and the replay window of `s`. -/
def KeySlot.Like (s t : KeySlot) : Prop :=
  t.keyId = s.keyId ∧ t.cipher = s.cipher ∧ t.replay = s.replay

lemma slots_unopened (h : ReflTransGen (Turn p) v v') (ho : v'.opens = v.opens) {i : Fin 2}
    {s' : KeySlot} (hs' : v'.slots i = some s') :
    (∃ s, v.slots i = some s ∧ s.Like s') ∨
      ∃ s ∈ v'.installs.drop v.installs.length, s.IsFresh ∧ s.Like s' := by
  induction h generalizing i s' with
  | refl => exact .inl ⟨s', hs', rfl, rfl, rfl⟩
  | @tail u v' hu ht ih =>
    obtain ⟨hopens, hinstalls⟩ := opens_history hu
    have hmid : u.opens = v.opens :=
      (hopens.eq_of_length_le (ho ▸ ht.opens.1.length_le)).symm
    have hlater {s : KeySlot} (hs : s ∈ u.installs.drop v.installs.length) :
        s ∈ v'.installs.drop v.installs.length := by
      obtain ⟨new, hnew⟩ := ht.opens.2
      rw [← hnew, List.drop_append_of_le_length hinstalls.length_le]
      exact List.mem_append_left _ hs
    have hback {s : KeySlot} (hs : u.slots i = some s) (hlike : s.Like s') :
        (∃ s, v.slots i = some s ∧ s.Like s') ∨
          ∃ s ∈ v'.installs.drop v.installs.length, s.IsFresh ∧ s.Like s' := by
      obtain ⟨hk, hc, hr⟩ := hlike
      rcases ih hmid hs with ⟨s₀, h₀, hk₀, hc₀, hr₀⟩ | ⟨s₀, h₀, hf₀, hk₀, hc₀, hr₀⟩
      · exact .inl ⟨s₀, h₀, hk.trans hk₀, hc.trans hc₀, hr.trans hr₀⟩
      · exact .inr ⟨s₀, hlater h₀, hf₀, hk.trans hk₀, hc.trans hc₀, hr.trans hr₀⟩
    cases ht with
    | install j slot hf =>
      rcases eq_some_of_update hs' with ⟨rfl, rfl⟩ | ⟨-, hs⟩
      · refine .inr ⟨s', ?_, hf, rfl, rfl, rfl⟩
        rw [List.drop_append_of_le_length hinstalls.length_le]
        exact List.mem_append_right _ (List.mem_singleton_self _)
      · exact hback hs ⟨rfl, rfl, rfl⟩
    | sealing j slot hs =>
      rcases eq_some_of_update hs' with ⟨rfl, rfl⟩ | ⟨-, hs⟩
      · exact hback hs ⟨rfl, rfl, rfl⟩
      · exact hback hs ⟨rfl, rfl, rfl⟩
    | opening j slot pid wire hs hp ha =>
      -- an opening would have left its record
      have hlen := congrArg List.length (ho.trans hmid.symm)
      simp at hlen

end History

/-! ### One event -/

section Event

variable {S : VpnServer Conn} {addr : SocketAddr} {w : World Conn} {e : Event Conn}

/-- What only an inbound data packet leaves in the log. -/
def Effect.isUplink : Effect → Bool
  | .opened .. | .tun .. => true
  | _ => false

lemma uplink_step {β : Type} {f : Effect → Option β}
    (hf : ∀ e : Effect, e.isUplink = false → f e = none) (he : ∀ env pkt, e ≠ .data env pkt) :
    (step S addr w e).log.filterMap f = w.log.filterMap f := by
  have hmove (e : Effect) (he : e.ofEvent = false) : f e = none := by
    refine hf e ?_
    cases e <;> first | rfl | cases he
  obtain ⟨es, hown, hlog⟩ := (step_reacts S addr w e).own hmove
  refine hlog.trans ?_
  have hnone : es.filterMap f = [] := by
    refine List.filterMap_eq_nil_iff.mpr fun x hx => hf x ?_
    cases hown with
    | refused | opened | forwarded => exact absurd rfl (he _ _)
    | fed h hop =>
      unfold ackOf at hx
      split at hx <;> simp at hx <;> rcases hx with rfl | rfl <;> rfl
    | heard h hop =>
      unfold ackOf at hx
      split at hx <;> simp at hx
      rw [hx]
      rfl
    | tun slot h | ping slot h =>
      rw [List.mem_singleton.mp hx]
      rfl
    | _ => cases hx
  rw [hnone, List.append_nil]

/-- A slot that holds the cipher `c` has the key id `k`, and its window is that of the receiver
`l`; before there was such a slot, nothing has been heard. -/
structure Tuned (c : DataCipher) (k : UInt8) (l : Listener) (w : World Conn) : Prop where
  slots : ∀ i s, w.sess.slots i = some s → s.cipher = c → s.keyId = k ∧ s.replay = l.window
  unheard : c ∉ (installs w.log).map KeySlot.cipher → l = {}

def Uplink.received (u : Uplink) : Bytes × Bytes × UInt32 := (u.wire, u.plaintext, u.packetId)

variable {c : DataCipher} {k : UInt8} {l : Listener}

lemma slotFor_eq_some {pkt : Bytes} {slot : KeySlot} (h : w.slotFor pkt = some slot) :
    ∃ i, w.sess.slots i = some slot := by
  obtain ⟨dp, -, hslot⟩ := Option.bind_eq_some_iff.mp h
  obtain ⟨i, -, hi⟩ := Option.bind_eq_some_iff.mp hslot
  exact ⟨i, hi⟩

lemma Tuned.refuse (h : Tuned c k l w) {pkt : Bytes} {slot : KeySlot}
    (hslot : w.slotFor pkt = some slot) (hc : slot.cipher = c) (ht : w.takes S pkt = none) :
    l.hear (c.readData S.prims k) pkt = l := by
  obtain ⟨i, hi⟩ := slotFor_eq_some hslot
  obtain ⟨hk, hwindow⟩ := h.slots i slot hi hc
  rw [World.takes, hslot, Option.bind_some, hc, hk, hwindow] at ht
  unfold Listener.hear
  rcases hread : c.readData S.prims k pkt with _ | ⟨plaintext, pid⟩
  · rfl
  · rw [hread, Option.bind_some] at ht
    split at ht
    · cases ht
    · rename_i hrefused
      have hfalse : (l.window.checkAndSet pid).1 = false := by simpa using hrefused
      have hsame := ReplayWindow.checkAndSet_of_refused hfalse
      simp only [hsame, hfalse, Bool.false_eq_true, if_false]

lemma Tuned.take (h : Tuned c k l w) {pkt : Bytes} {u : Uplink} (ht : w.takes S pkt = some u)
    (hc : u.slot.cipher = c) : l.hear (c.readData S.prims k) pkt =
      ⟨(u.slot.replay.checkAndSet u.packetId).2, l.taken ++ [u.received]⟩ := by
  obtain ⟨slot, hslot, hrest⟩ := Option.bind_eq_some_iff.mp ht
  obtain ⟨⟨plaintext, pid⟩, hread, hrest⟩ := Option.bind_eq_some_iff.mp hrest
  split at hrest
  · rename_i hok
    obtain rfl := Option.some.inj hrest
    obtain ⟨i, hi⟩ := slotFor_eq_some hslot
    obtain ⟨hk, hwindow⟩ := h.slots i slot hi hc
    dsimp only at hc hok hread ⊢
    rw [hc, hk] at hread
    rw [hwindow] at hok ⊢
    unfold Listener.hear
    rw [hread]
    simp only [hok, if_true]
    rfl
  · cases hrest

/-- The listener of the cipher `c` after an event. -/
def hearing (S : VpnServer Conn) (c : DataCipher) (k : UInt8) (l : Listener) (ds : List Bytes) :
    Listener := run (Listener.hear (c.readData S.prims k)) l ds

lemma slotFor_of_takes {pkt : Bytes} {u : Uplink} (h : w.takes S pkt = some u) :
    w.slotFor pkt = some u.slot := by
  obtain ⟨slot, hslot, hrest⟩ := Option.bind_eq_some_iff.mp h
  obtain ⟨r, -, hrest⟩ := Option.bind_eq_some_iff.mp hrest
  split at hrest
  · obtain rfl := Option.some.inj hrest
    exact hslot
  · cases hrest

lemma Tuned.data (h : Tuned c k l w) (hl : Lineage DataCipher.decKey w.abs.keys) (env : Env Conn)
    (pkt : Bytes) :
    Tuned c k (hearing S c k l (w.reaches c (.data env pkt))) (step S addr w (.data env pkt)) ∧
      (hearing S c k l (w.reaches c (.data env pkt))).taken = l.taken ++
        ((w.uptakes S (.data env pkt)).filter (·.slot.cipher = c)).map Uplink.received := by
  rcases ht : w.takes S pkt with _ | u
  -- a packet that is not taken moves no replay window, on either side
  · have hsame : hearing S c k l (w.reaches c (.data env pkt)) = l := by
      rw [World.reaches]
      split
      · rename_i hreach
        obtain ⟨slot, hslot, hc⟩ := Option.map_eq_some_iff.mp hreach
        exact h.refuse hslot hc ht
      · rfl
    rw [hsame, step_data_none addr env ht]
    refine ⟨⟨h.slots, h.unheard⟩, ?_⟩
    simp [World.uptakes, ht]
  · obtain ⟨i, hi, hslots, hlog⟩ := step_data_some addr env ht
    have hinstalls : installs (step S addr w (.data env pkt)).log = installs w.log := by
      rw [hlog, installs_append, installs_append, Uplink.delivers]
      split <;> simp [installs]
    have huptakes : w.uptakes S (.data env pkt) = [u] := by
      rw [World.uptakes, ht]
      rfl
    rw [huptakes]
    by_cases hc : u.slot.cipher = c
    · have hreach : w.reaches c (.data env pkt) = [pkt] := by
        rw [World.reaches, slotFor_of_takes ht, Option.map_some, if_pos (congrArg some hc)]
      have hhear : hearing S c k l [pkt] =
          ⟨(u.slot.replay.checkAndSet u.packetId).2, l.taken ++ [u.received]⟩ := h.take ht hc
      rw [hreach, hhear]
      refine ⟨⟨fun j s hj hs => ?_, fun hnew => ?_⟩, by simp [hc]⟩
      · rw [hslots] at hj
        rcases eq_some_of_update hj with ⟨rfl, rfl⟩ | ⟨hji, hj⟩
        · exact ⟨(h.slots j u.slot hi hc).1, rfl⟩
        · exact absurd (hl.apart i j u.slot s hi hj (by rw [hc, hs])).symm hji
      · rw [hinstalls] at hnew
        exact absurd (hc ▸ hl.known i u.slot hi) hnew
    · have hreach : w.reaches c (.data env pkt) = [] := by
        rw [World.reaches, slotFor_of_takes ht, Option.map_some, if_neg (by simpa using hc)]
      rw [hreach]
      refine ⟨⟨fun j s hj hs => ?_, fun hnew => h.unheard (hinstalls ▸ hnew)⟩, by
        simp [hc, hearing]⟩
      rw [hslots] at hj
      rcases eq_some_of_update hj with ⟨rfl, rfl⟩ | ⟨-, hj⟩
      · exact absurd hs hc
      · exact h.slots j s hj hs

lemma Tuned.other (h : Tuned c k l w) (he : ∀ env pkt, e ≠ .data env pkt)
    (hd : (step S addr w e).abs.keys.Distinct DataCipher.decKey)
    (hk : ∀ s ∈ installs (step S addr w e).log, s.cipher = c → s.keyId = k) :
    Tuned c k l (step S addr w e) := by
  have hist := (step_reacts S addr w e).keys
  have hopens : (step S addr w e).abs.keys.opens = w.abs.keys.opens :=
    uplink_step (fun e he => by cases e <;> first | rfl | cases he) he
  obtain ⟨new, hnew⟩ := (opens_history hist).2
  have hinstalls : installs (step S addr w e).log = installs w.log ++ new := hnew.symm
  refine ⟨fun i s hs hc => ?_, fun hnot => h.unheard fun hmem => hnot ?_⟩
  · rcases slots_unopened hist hopens hs with ⟨s₀, h₀, hk₀, hc₀, hr₀⟩ | ⟨s₀, h₀, hf₀, hk₀, hc₀, hr₀⟩
    · obtain ⟨hkey, hwindow⟩ := h.slots i s₀ h₀ (hc₀ ▸ hc)
      exact ⟨hk₀.trans hkey, hr₀.trans hwindow⟩
    · -- a new slot with this cipher: there was none before, so nothing has been heard
      rw [← hnew, List.drop_left] at h₀
      have hfresh : c ∉ (installs w.log).map KeySlot.cipher := by
        intro hmem
        obtain ⟨t, ht, htc⟩ := List.mem_map.mp hmem
        have hnodup : ((installs w.log ++ new).map fun s => s.cipher.decKey).Nodup :=
          hinstalls ▸ hd
        rw [List.map_append] at hnodup
        refine (List.nodup_append.mp hnodup).2.2 _ (List.mem_map_of_mem ht) _
          (List.mem_map_of_mem h₀) ?_
        rw [htc, ← hc, hc₀]
      refine ⟨hk₀.trans (hk s₀ ?_ (hc₀ ▸ hc)), ?_⟩
      · rw [hinstalls]
        exact List.mem_append_right _ h₀
      · rw [h.unheard hfresh, hr₀, hf₀.2]
  · rw [hinstalls, List.map_append]
    exact List.mem_append_left _ hmem

/-- **One event.** -/
lemma Tuned.step (h : Tuned c k l w) (hl : Lineage DataCipher.decKey w.abs.keys) (e : Event Conn)
    (hd : (step S addr w e).abs.keys.Distinct DataCipher.decKey)
    (hk : ∀ s ∈ installs (Javs.step S addr w e).log, s.cipher = c → s.keyId = k) :
    Tuned c k (hearing S c k l (w.reaches c e)) (Javs.step S addr w e) ∧
      (hearing S c k l (w.reaches c e)).taken = l.taken ++
        ((w.uptakes S e).filter (·.slot.cipher = c)).map Uplink.received := by
  cases e with
  | data env pkt => exact h.data hl env pkt
  | _ => exact ⟨h.other nofun hd hk, (List.append_nil _).symm⟩

end Event

/-! ### Runs -/

section Run

variable (S : VpnServer Conn) (addr : SocketAddr) (o : Opening Conn)

lemma keys_started_eq : (started S o).abs.keys = .empty := by
  obtain ⟨reply, -, hm⟩ := started_moves S ⟨.v4 0, 0⟩ o
  have hsend {a b : Abs} (h : ReflTransGen (Move S ⟨.v4 0, 0⟩ 0 .send) a b) : b.keys = a.keys := by
    induction h with
    | refl => rfl
    | tail _ hmove ih =>
      rw [← ih]
      cases hmove with
      | wire => exact keys_tell rfl _
      | sent => exact keys_tell rfl _
      | ack _ _ _ hl | drained _ _ _ hl | frag _ _ _ hl => rcases hl with hl | hl <;> cases hl
  rw [hsend hm, keys_build rfl]
  rfl

lemma lineage_run (es : List (Event Conn))
    (hd : (run (step S addr) (started S o) es).abs.keys.Distinct DataCipher.decKey) :
    Lineage DataCipher.decKey (run (step S addr) (started S o) es).abs.keys :=
  history_keeps (fun _ _ ht hd hl => hl.turn ht hd) lineage_empty
    ((keys_started S o).trans (keys_run S addr (started S o) es)) hd

/-- **A run is heard by the receivers of its slots.** -/
lemma tuned_run {c : DataCipher} {k : UInt8} (es : List (Event Conn))
    (hd : (run (step S addr) (started S o) es).abs.keys.Distinct DataCipher.decKey)
    (hk : ∀ s ∈ installs (run (step S addr) (started S o) es).log, s.cipher = c → s.keyId = k) :
    Tuned c k (hearing S c k {} (reaching S addr (started S o) es c))
        (run (step S addr) (started S o) es) ∧
      (hearing S c k {} (reaching S addr (started S o) es c)).taken =
        ((uplinks S addr (started S o) es).filter (·.slot.cipher = c)).map Uplink.received := by
  induction es using List.reverseRecOn with
  | nil =>
    have hempty := keys_started_eq S o
    refine ⟨⟨fun i s hs => ?_, fun _ => rfl⟩, rfl⟩
    have hslots := congrArg KeyView.slots hempty
    have hnone : (started S o).sess.slots i = none := congrFun hslots i
    rw [run_nil, hnone] at hs
    cases hs
  | append_singleton es e ih =>
    obtain ⟨w, hw⟩ : ∃ w, w = run (step S addr) (started S o) es := ⟨_, rfl⟩
    have hlast : run (step S addr) (started S o) (es ++ [e]) = step S addr w e := by
      rw [run_append, hw]
      rfl
    rw [hlast] at hd hk ⊢
    have hist := (step_reacts S addr w e).keys
    have hd₀ : w.abs.keys.Distinct DataCipher.decKey := by
      obtain ⟨new, hnew⟩ := (opens_history hist).2
      unfold KeyView.Distinct at hd ⊢
      rw [← hnew, List.map_append] at hd
      exact (List.nodup_append.mp hd).1
    have hk₀ : ∀ s ∈ installs w.log, s.cipher = c → s.keyId = k := fun s hs =>
      hk s ((opens_history hist).2.subset hs)
    rw [← hw] at ih
    obtain ⟨htuned, htaken⟩ := ih hd₀ hk₀
    have hlin : Lineage DataCipher.decKey w.abs.keys := hw ▸ lineage_run S addr o es (hw ▸ hd₀)
    obtain ⟨htuned', htaken'⟩ := htuned.step hlin e hd hk
    have hreach : reaching S addr (started S o) (es ++ [e]) c =
        reaching S addr (started S o) es c ++ w.reaches c e := by
      simp [reaching, trace_append, hw]
    have hup : uplinks S addr (started S o) (es ++ [e]) =
        uplinks S addr (started S o) es ++ w.uptakes S e := by
      simp [uplinks, trace_append, hw]
    have hhear : hearing S c k {} (reaching S addr (started S o) (es ++ [e]) c) =
        hearing S c k (hearing S c k {} (reaching S addr (started S o) es c)) (w.reaches c e) := by
      rw [hreach]
      exact run_append _ _ _ _
    rw [hhear, hup, List.filter_append, List.map_append, ← htaken]
    exact ⟨htuned', htaken'⟩

/-- The TUN writer takes packets when the event happens. -/
def Event.tunOpen : Event Conn → Bool
  | .data env _ => env.tunOpen
  | _ => true

lemma deliveries_append (log log' : List Effect) :
    deliveries (log ++ log') = deliveries log ++ deliveries log' :=
  List.filterMap_append

lemma deliveries_tun (ds : List (Bytes × Bytes)) :
    deliveries (ds.map fun d => .tun d.1 d.2) = ds := by
  rw [deliveries, List.filterMap_map]
  exact List.filterMap_some

lemma deliveries_run (es : List (Event Conn)) (hopen : ∀ e ∈ es, e.tunOpen = true) :
    deliveries (run (step S addr) (started S o) es).log =
      ((uplinks S addr (started S o) es).filter (·.plaintext ≠ pingPayload)).map fun u =>
        (u.wire, u.plaintext) := by
  induction es using List.reverseRecOn with
  | nil =>
    exact filterMap_started (fun e he => by cases e <;> first | rfl | cases he) o
  | append_singleton es e ih =>
    obtain ⟨w, hw⟩ : ∃ w, w = run (step S addr) (started S o) es := ⟨_, rfl⟩
    have hup : uplinks S addr (started S o) (es ++ [e]) =
        uplinks S addr (started S o) es ++ w.uptakes S e := by
      simp [uplinks, trace_append, hw]
    have hlast : run (step S addr) (started S o) (es ++ [e]) = step S addr w e := by
      rw [run_append, hw]
      rfl
    rw [hlast, hup, List.filter_append, List.map_append,
      ← ih fun e he => hopen e (List.mem_append_left _ he), ← hw]
    have hother (he : ∀ env pkt, e ≠ .data env pkt) :
        deliveries (step S addr w e).log = deliveries w.log :=
      uplink_step (fun e he => by cases e <;> first | rfl | cases he) he
    cases e with
    | data env pkt =>
      have htun : env.tunOpen = true :=
        hopen _ (List.mem_append_right _ (List.mem_singleton_self _))
      rw [World.uptakes]
      rcases ht : w.takes S pkt with _ | u
      · rw [step_data_none addr env ht]
        exact (List.append_nil _).symm
      · obtain ⟨-, -, -, hlog⟩ := step_data_some addr env ht
        rw [hlog, deliveries_append, deliveries_append, deliveries_tun, Uplink.delivers, htun,
          List.append_assoc]
        by_cases hping : u.plaintext = pingPayload
        · simp only [hping, ne_eq, not_true_eq_false, false_and, if_false]
          simp [hping, deliveries, Effect.delivered?]
        · simp [hping, deliveries, Effect.delivered?]
    | _ => exact (hother nofun).trans (List.append_nil _).symm

end Run

/-! ### The client -/

/-- The datagrams of a client that seals with the mirror of `c`, each with its plaintext and its
packet id. -/
def SealedBy (p : Primitives) (c : DataCipher) (keyId : UInt8) (peerId : UInt32)
    (ts : List (Bytes × Bytes × UInt32)) : Prop :=
  ∀ t ∈ ts, ∃ ct, c.mirror.seal' p t.2.2 (Session.dataHeader peerId keyId t.2.2) t.2.1 = .ok ct ∧
    t.1 = Session.dataHeader peerId keyId t.2.2 ++ ct

lemma SealedBy.readData {p : Primitives} {c : DataCipher} {keyId : UInt8} {peerId : UInt32}
    {ts : List (Bytes × Bytes × UInt32)} (h : SealedBy p c keyId peerId ts) (hp : p.Decrypts)
    (hc : c.Sized) (hkey : keyId < 8) : ∀ t ∈ ts, c.readData p keyId t.1 = some t.2 := by
  rintro ⟨wire, text, pid⟩ ht
  obtain ⟨ct, hseal, hwire⟩ := h _ ht
  dsimp only at hseal hwire ⊢
  have hlen := length_dataHeader peerId keyId pid
  have hopen : c.open' p pid _ ct = .ok text := DataCipher.open'_of_seal' hp hc.mirror _ _ _ hseal
  simp only [DataCipher.readData, hwire, parse_dataHeader hkey, if_true, List.take_left' hlen,
    hopen]
  rfl

/-- **The server follows the client's data.** In every run whose slots hold distinct keys, what
goes to the TUN, if its writer never stops, is what has been taken, without the pings; and for every
slot that was installed and every client that seals with the mirrored cipher under increasing packet
ids other than 0: if of the datagrams that arrive for the slot those that open under it are some of
the client's in the order of the packet ids, they are all taken, whatever is lost, forged or arrives
for other slots in between, and whatever else happens to the session; and in whatever order and
however often the client's datagrams arrive, none is taken twice, and none for another. -/
theorem server_follows_data (S : VpnServer Conn) (hp : S.prims.Decrypts) (hs : S.prims.Sized)
    (addr : SocketAddr) (o : Opening Conn) (es : List (Event Conn)) (hin : ∀ e ∈ es, e.Parsed)
    (hd : (run (step S addr) (started S o) es).abs.keys.Distinct DataCipher.decKey) :
    let w := run (step S addr) (started S o) es
    let taken := uplinks S addr (started S o) es
    ((∀ e ∈ es, e.tunOpen = true) → deliveries w.log =
      (taken.filter (·.plaintext ≠ pingPayload)).map fun u => (u.wire, u.plaintext)) ∧
    ∀ slot ∈ installs w.log, ∀ peerId ts, SealedBy S.prims slot.cipher slot.keyId peerId ts →
      ts.Pairwise (fun t t' => t.2.2 < t'.2.2) → (∀ t ∈ ts, 0 < t.2.2) →
      let mine := taken.filter (·.slot.cipher = slot.cipher)
      let heard := (reaching S addr (started S o) es slot.cipher).filter fun d =>
        (slot.cipher.readData S.prims slot.keyId d).isSome
      (∀ xs : List (Bytes × Bytes × UInt32), xs.Sublist ts → heard = xs.map Prod.fst →
        mine.map Uplink.received = xs) ∧
      (heard ⊆ ts.map Prod.fst → (mine.map Uplink.wire).Nodup ∧ ∀ u ∈ mine, u.received ∈ ts) := by
  intro w taken
  refine ⟨deliveries_run S addr o es, fun slot hslot peerId ts hts hinc hpos => ?_⟩
  intro mine heard
  obtain ⟨hsized, hkey⟩ := sized_installs hs addr o hin hslot
  -- a decryption key is installed once, so that it has one key id
  have hk : ∀ s ∈ installs w.log, s.cipher = slot.cipher → s.keyId = slot.keyId := by
    intro s hs hc
    rw [List.inj_on_of_nodup_map hd hs hslot (congrArg DataCipher.decKey hc)]
  have hmine : mine.map Uplink.received =
      (run (Listener.hear (slot.cipher.readData S.prims slot.keyId)) {} heard).taken := by
    rw [Listener.run_hear_filter]
    exact (tuned_run S addr o es hd hk).2.symm
  obtain ⟨hinOrder, honce⟩ := Listener.follows (hts.readData hp hsized hkey) hinc hpos
  refine ⟨fun xs hxs hheard => ?_, fun hsub => ?_⟩
  · rw [hmine, hheard]
    exact hinOrder xs hxs
  · obtain ⟨hnodup, hmem⟩ := honce heard hsub
    rw [← hmine, List.map_map] at hnodup
    refine ⟨hnodup, fun u hu => hmem _ ?_⟩
    rw [← hmine]
    exact List.mem_map_of_mem hu

lemma seal'_tagPrims (c : DataCipher) (pid : UInt32) (aad text : Bytes) :
    c.seal' tagPrims pid aad text = .ok (List.replicate 16 0 ++ text) := by
  simp [DataCipher.seal', tagPrims, tagSize]

def upstream (pid : UInt32) (text : Bytes) : Bytes × Bytes × UInt32 :=
  (Session.dataHeader 1 0 pid ++ (List.replicate 16 0 ++ text), text, pid)

lemma sealedBy_upstream (c : DataCipher) (xs : List (UInt32 × Bytes)) :
    SealedBy tagPrims c 0 1 (xs.map fun x => upstream x.1 x.2) := by
  intro t ht
  obtain ⟨x, -, rfl⟩ := List.mem_map.mp ht
  exact ⟨_, seal'_tagPrims _ _ _ _, rfl⟩

/-- The second of three packets is lost, a forged one comes in its place, and a rekey begins in
between: the first and the third reach the TUN. -/
theorem server_follows_data_lossy :
    let es : List (Event Plain) := [establishing, .data (plainEnv 1) (upstream 1 [0x45]).1,
      .data (plainEnv 1) (Session.dataHeader 1 0 2 ++ List.replicate 16 1),
      .rekey { plainEnv 2 with now := 3600000 }, .data (plainEnv 1) (upstream 3 [0x60]).1]
    deliveries (run (step taggingServer plainAddr) (started taggingServer plainOpening) es).log =
      [((upstream 1 [0x45]).1, [0x45]), ((upstream 3 [0x60]).1, [0x60])] := by
  intro es
  obtain ⟨w, hw⟩ : ∃ w, w = run (step taggingServer plainAddr)
    (started taggingServer plainOpening) es := ⟨_, rfl⟩
  obtain ⟨taken, htaken⟩ : ∃ taken, taken = uplinks taggingServer plainAddr
    (started taggingServer plainOpening) es := ⟨_, rfl⟩
  have hfacts : w.abs.keys.Distinct DataCipher.decKey ∧ (∀ e ∈ es, e.tunOpen = true) ∧
      ∃ slot ∈ installs w.log, slot.keyId = 0 ∧
        (reaching taggingServer plainAddr (started taggingServer plainOpening) es
          slot.cipher).filter (fun d => (slot.cipher.readData tagPrims 0 d).isSome) =
            [(upstream 1 [0x45]).1, (upstream 3 [0x60]).1] ∧
        ∀ u ∈ taken, u.slot.cipher = slot.cipher := by
    rw [hw, htaken]
    unfold KeyView.Distinct
    decide +kernel
  obtain ⟨hd, hopen, slot, hslot, hkey, hheard, hall⟩ := hfacts
  rw [hw] at hd hslot
  have hin : ∀ e ∈ es, e.Parsed := by
    intro e he
    rcases List.mem_cons.mp he with rfl | he
    · exact parsed_establishing
    · simp only [List.mem_cons, List.not_mem_nil, or_false] at he
      rcases he with rfl | rfl | rfl | rfl <;> trivial
  obtain ⟨hdeliver, hfollow⟩ := server_follows_data taggingServer decrypts_tagPrims sized_tagPrims
    plainAddr plainOpening es hin hd
  have hclient := sealedBy_upstream slot.cipher [(1, [0x45]), (2, []), (3, [0x60])]
  rw [← hkey] at hclient hheard
  have hmine := (hfollow slot hslot 1 _ hclient (by decide)
    (by decide)).1 [upstream 1 [0x45], upstream 3 [0x60]] (by decide) hheard
  rw [← htaken, List.filter_eq_self.mpr fun u hu => by simpa using hall u hu] at hmine
  rw [hdeliver hopen, ← htaken]
  have hpairs : taken.map (fun u => (u.wire, u.plaintext)) =
      (taken.map Uplink.received).map fun t => (t.1, t.2.1) := by
    rw [List.map_map]
    rfl
  have hplain : ∀ u ∈ taken, u.plaintext ≠ pingPayload := by
    intro u hu
    have hmem : u.received ∈ [upstream 1 [0x45], upstream 3 [0x60]] :=
      hmine ▸ List.mem_map_of_mem hu
    rcases List.mem_cons.mp hmem with h | h
    · rw [show u.plaintext = [0x45] from congrArg (fun t => t.2.1) h]
      decide
    · rw [show u.plaintext = [0x60] from congrArg (fun t => t.2.1) (List.mem_singleton.mp h)]
      decide
  rw [List.filter_eq_self.mpr fun u hu => by simpa using hplain u hu, hpairs, hmine]
  rfl

end Javs
