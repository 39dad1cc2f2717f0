import Javs.KeyHistory

/-!
The outbound switch to new keys, seen from both ends.

The server and its client are two parties with control packets in flight between them: the
network delivers any packet that was sent, at any time, any number of times or never, and
the client acknowledges what it has received. The server switches to a new slot when it has
sent its key-method-2 reply. The client has that reply, and with it the keys, only once the
packets that carry it have arrived, which the server knows from their acknowledgements.
-/

namespace Javs

open Lib Relation

variable {Conn : Type}

/-! ### Packet ids -/

/-- The packets built so far are numbered in order, and what was sent was built. -/
structure Numbered (a : Abs) : Prop where
  next : a.nextPid = UInt32.ofNat (built a.log).length
  pid : ∀ i pkt, (built a.log)[i]? = some pkt → pkt.packetId = some (UInt32.ofNat i)
  sent : ∀ pkt, Effect.sent pkt ∈ a.log → pkt.packetId = none ∨ pkt ∈ built a.log

section Numbered

variable {S : VpnServer Conn} {addr : SocketAddr} {n : ℕ} {l : Lane} {a b : Abs}

lemma Numbered.snoc (h : Numbered a) {e : Effect} (hn : b.nextPid = a.nextPid)
    (hl : b.log = a.log ++ [e]) (he : built [e] = [])
    (hs : ∀ pkt, e = .sent pkt → pkt.packetId = none ∨ pkt ∈ built a.log) : Numbered b := by
  have hb : built b.log = built a.log := by rw [hl, built_append, he, List.append_nil]
  refine ⟨by rw [hn, hb, h.next], fun i pkt hi => h.pid i pkt (hb ▸ hi), fun pkt hp => ?_⟩
  rw [hl, List.mem_append, List.mem_singleton] at hp
  rw [hb]
  rcases hp with hp | hp
  · exact h.sent pkt hp
  · exact hs pkt hp.symm

lemma Numbered.aside (h : Numbered a) {e : Effect} (hn : b.nextPid = a.nextPid)
    (hl : b.log = a.log ++ [e]) (he : built [e] = []) (hs : e.sent? = none) : Numbered b := by
  refine h.snoc hn hl he fun pkt hpkt => ?_
  rw [hpkt] at hs
  cases hs

lemma Numbered.build (h : Numbered a) {e : Effect} {pkt : ControlPacket} (he : built [e] = [pkt])
    (hp : pkt.packetId = some a.nextPid) (hs : e.sent? = none) : Numbered (a.build e) := by
  have hb : built (a.build e).log = built a.log ++ [pkt] := by rw [Abs.build, built_append, he]
  refine ⟨?_, fun i p hi => ?_, fun p hp' => ?_⟩
  · rw [hb, List.length_append, Abs.build, h.next]
    exact (UInt32.ofNat_add _ _).symm
  · rw [hb] at hi
    rcases Nat.lt_or_ge i (built a.log).length with hlt | hge
    · rw [List.getElem?_append_left hlt] at hi
      exact h.pid i p hi
    · have hlen := (List.getElem?_eq_some_iff.mp hi).1
      have : i = (built a.log).length := by simp at hlen; omega
      subst this
      have hpkt : pkt = p := by simpa using hi
      rw [← hpkt, hp, h.next]
  · rw [Abs.build, List.mem_append, List.mem_singleton] at hp'
    rw [hb, List.mem_append]
    rcases hp' with hp' | hp'
    · exact (h.sent p hp').imp_right .inl
    · rw [← hp'] at hs
      cases hs

lemma Numbered.move (h : Numbered a) (hm : Move S addr n l a b) : Numbered b := by
  cases hm with
  | sent _ _ pkt hp => exact h.snoc (e := .sent pkt) rfl rfl rfl (by rintro _ ⟨⟩; exact hp)
  | frag _ _ pkt hl hk hp => exact h.build rfl hp rfl
  | rkFrag _ t pkt ht hk hp => exact h.build rfl hp rfl
  | keyed | established | closed => exact ⟨h.next, h.pid, h.sent⟩
  | _ => exact h.aside rfl rfl rfl rfl

lemma Numbered.moves (h : Numbered a) (hm : ReflTransGen (Move S addr n l) a b) :
    Numbered b := by
  induction hm with
  | refl => exact h
  | tail _ hm ih => exact ih.move hm

lemma Numbered.hear (h : Numbered a) (ctrl : ControlPacket) : Numbered (a.hear ctrl) := by
  unfold Abs.hear
  split
  · exact h
  · exact h.aside (e := .acked ctrl.acks) rfl rfl rfl rfl

lemma Numbered.sealing (h : Numbered b) {slot : KeySlot} (ha : (b.seal slot).MayWire a) :
    Numbered a := by
  have hs : Numbered (b.seal slot) :=
    h.aside (e := .sealed slot.cipher slot.dataPidOut) rfl rfl rfl rfl
  rcases ha with rfl | ⟨bytes, rfl⟩
  · exact hs
  · exact hs.aside (e := .wire bytes) rfl rfl rfl rfl

lemma Numbered.opened {w : World Conn} (h : Numbered w.abs) (pkt : Bytes) (dp : DataPacketV2)
    (i : Fin 2) (slot : KeySlot) : Numbered (w.opened pkt dp i slot).abs :=
  h.aside (e := .opened slot.cipher dp.packetId pkt) rfl rfl rfl rfl

lemma Numbered.react {w : World Conn} {e : Event Conn} (h : Numbered w.abs)
    (hr : Reacts S addr w e a) : Numbered a := by
  cases hr with
  | rejected | refused | tunIdle | pingIdle | rekeyIdle => exact h
  | shared => exact ⟨h.next, h.pid, h.sent⟩
  | @main env ctrl replayPid _ hacc hop hrk hm =>
    refine Numbered.moves ?_ hm
    exact (h.hear ctrl).aside (e := .feed .main ctrl) rfl rfl rfl rfl
  | @rekeying env ctrl replayPid _ hacc hop t hrk hk hm =>
    refine Numbered.moves ?_ hm
    exact (h.hear ctrl).aside (e := .feed (.rekey t.keyId) ctrl) rfl rfl rfl rfl
  | @softReset env ctrl replayPid _ hacc hop hrk hs reply hp hm =>
    -- the reply takes the next id after what has been heard
    have hheard := h.hear ctrl
    have hstart : Numbered ((w.abs.hear ctrl).startRekey ctrl.keyId) :=
      ⟨hheard.next, hheard.pid, hheard.sent⟩
    refine Numbered.moves (hstart.build (e := .reset reply) rfl ?_ rfl) hm
    exact hp.trans (congrArg some (hear_nextPid w.abs ctrl).symm)
  | heard hacc hop => exact h.hear _
  | opened dp i slot plaintext ho => exact h.opened _ dp i slot
  | @forwarded env pkt dp i slot plaintext ho =>
    exact (h.opened pkt dp i slot).aside (e := .tun pkt plaintext) rfl rfl rfl rfl
  | tun slot hs ha => exact h.sealing ha
  | ping slot hs ha => exact h.sealing ha
  | rekey hrk hs pkt hp hm =>
    have hstart : Numbered (w.abs.startRekey ((w.sess.activeKeyId + 1) &&& 7)) :=
      ⟨h.next, h.pid, h.sent⟩
    exact Numbered.moves (hstart.build (e := .reset pkt) rfl hp rfl) hm
  | retransmit hm => exact h.moves hm
  | shutdown hm => exact h.moves hm

lemma numbered_started (S : VpnServer Conn) (o : Opening Conn) : Numbered (started S o).abs := by
  obtain ⟨reply, hp, hm⟩ := started_moves S ⟨.v4 0, 0⟩ o
  have h : Numbered (Abs.opening o.tab o.peerId) := ⟨rfl, nofun, nofun⟩
  exact Numbered.moves (h.build (e := .reset reply) rfl hp rfl) hm

lemma Numbered.unique (h : Numbered a) (hlen : (built a.log).length ≤ 2 ^ 32)
    {p q : ControlPacket} (hp : p ∈ built a.log) (hq : q ∈ built a.log)
    (hpq : p.packetId = q.packetId) : p = q := by
  obtain ⟨i, hi⟩ := List.mem_iff_getElem?.mp hp
  obtain ⟨j, hj⟩ := List.mem_iff_getElem?.mp hq
  have hil := (List.getElem?_eq_some_iff.mp hi).1
  have hjl := (List.getElem?_eq_some_iff.mp hj).1
  rw [h.pid i p hi, h.pid j q hj, Option.some_inj] at hpq
  have hij : i % 2 ^ 32 = j % 2 ^ 32 := by simpa using congrArg UInt32.toNat hpq
  rw [Nat.mod_eq_of_lt (by omega), Nat.mod_eq_of_lt (by omega)] at hij
  subst hij
  exact Option.some_inj.mp (hi.symm.trans hj)

end Numbered

/-! ### The reply that a switch rests on -/

structure Reply where
  /-- The bytes taken out of the rekey's context since the reply was queued there. -/
  drained : Bytes := []
  /-- The packets built around them. -/
  packets : List ControlPacket := []

def Reply.note (r : Reply) : Effect → Reply
  | .replied _ => {}
  | .drained (.rekey _) out => { r with drained := r.drained ++ out }
  | .frag (.rekey _) pkt => { r with packets := r.packets ++ [pkt] }
  | _ => r

/-- The reply of the rekey in progress, and that of the last rekey that completed. -/
def noteReply (s : Reply × Option Reply) : Effect → Reply × Option Reply
  | .rekeyed .. => (s.1, some s.1)
  | e => (s.1.note e, s.2)

/-- The reply of the rekey that made the active slot active; none if there was no rekey. -/
def switchedReply (log : List Effect) : Option Reply := (log.foldl noteReply ({}, none)).2

/-- All the bytes of the reply have been put into packets. -/
def Reply.Carried (r : Reply) : Prop := r.packets.flatMap ControlPacket.payload = r.drained

/-- A client that has received the packets `got` has received the reply. -/
def Reply.Received (r : Reply) (got : List ControlPacket) : Prop :=
  r.Carried ∧ ∀ pkt ∈ r.packets, pkt ∈ got

instance (r : Reply) : Decidable r.Carried := inferInstanceAs (Decidable (_ = _))

lemma Reply.packets_note (r : Reply) (e : Effect) :
    ∀ pkt ∈ (r.note e).packets, pkt ∈ r.packets ∨ pkt ∈ built [e] := by
  intro pkt h
  unfold Reply.note at h
  split at h
  · cases h
  · exact .inl h
  · rcases List.mem_append.mp h with h | h
    · exact .inl h
    · exact .inr h
  · exact .inl h

lemma packets_built (log : List Effect) :
    (∀ pkt ∈ (log.foldl noteReply ({}, none)).1.packets, pkt ∈ built log) ∧
      ∀ r ∈ switchedReply log, ∀ pkt ∈ r.packets, pkt ∈ built log := by
  unfold switchedReply
  induction log using List.reverseRecOn with
  | nil => exact ⟨nofun, nofun⟩
  | append_singleton log e ih =>
    have hb : ∀ pkt ∈ built log, pkt ∈ built (log ++ [e]) := fun pkt h => by
      rw [built_append]
      exact List.mem_append_left _ h
    rw [List.foldl_append, List.foldl_cons, List.foldl_nil]
    generalize log.foldl noteReply ({}, none) = s at ih
    unfold noteReply
    split
    · refine ⟨fun pkt h => hb pkt (ih.1 pkt h), ?_⟩
      rintro r ⟨⟩ pkt h
      exact hb pkt (ih.1 pkt h)
    · refine ⟨fun pkt h => ?_, fun r hr pkt h => hb pkt (ih.2 r hr pkt h)⟩
      rcases s.1.packets_note e pkt h with h | h
      · exact hb pkt (ih.1 pkt h)
      · rw [built_append]
        exact List.mem_append_right _ h

/-! ### The two parties -/

/-- The server's session, and the control packets its client has received. -/
structure Link (Conn : Type) where
  server : World Conn
  received : List ControlPacket := []

inductive LinkEvent (Conn : Type)
  | server (e : Event Conn)
  | deliver (pkt : ControlPacket)

def linkStep (S : VpnServer Conn) (addr : SocketAddr) (s : Link Conn) : LinkEvent Conn → Link Conn
  | .server e => { s with server := step S addr s.server e }
  | .deliver pkt => { s with received := s.received ++ [pkt] }

def Effect.acked? : Effect → Option (List UInt32)
  | .acked acks => some acks
  | _ => none

def ackedIds (log : List Effect) : List UInt32 := (log.filterMap Effect.acked?).flatten

/-- The network delivers what was sent, and the client acknowledges what it has received. -/
def Honest (s : Link Conn) : LinkEvent Conn → Prop
  | .server (.control _ ctrl _) =>
    ∀ pid ∈ ctrl.acks, ∃ pkt ∈ s.received, pkt.packetId = some pid
  | .server _ => True
  | .deliver pkt => pkt ∈ sentPackets s.server.log

/-- Data is sealed behind a rekey only when all packets of its reply have been built and
acknowledged, and the packet ids have not wrapped around. -/
def AckedFirst (s : Link Conn) : LinkEvent Conn → Prop
  | .server (.tun ..) | .server (.ping _) => ∀ r ∈ switchedReply s.server.log,
      r.Carried ∧ (∀ pkt ∈ r.packets, ∃ pid ∈ ackedIds s.server.log, pkt.packetId = some pid) ∧
        (built s.server.log).length ≤ 2 ^ 32
  | _ => True

-- The packet ids are looked for in the lists, not among all numbers.
instance (s : Link Conn) (e : LinkEvent Conn) : Decidable (Honest s e) := by
  unfold Honest
  split
  · exact List.decidableBAll (fun pid => ∃ pkt ∈ s.received, pkt.packetId = some pid) _
  · infer_instance
  · infer_instance

instance (ids : List UInt32) (pkt : ControlPacket) :
    Decidable (∃ pid ∈ ids, pkt.packetId = some pid) :=
  List.decidableBEx (fun pid => pkt.packetId = some pid) ids

instance (s : Link Conn) (e : LinkEvent Conn) : Decidable (AckedFirst s e) := by
  unfold AckedFirst
  split <;> infer_instance

def Seals (S : VpnServer Conn) (addr : SocketAddr) (w : World Conn) (e : Event Conn) : Prop :=
  (step S addr w e).log.filterMap Effect.sealed? ≠ w.log.filterMap Effect.sealed?

structure Linked (s : Link Conn) : Prop where
  numbered : Numbered s.server.abs
  delivered : ∀ pkt ∈ s.received, pkt ∈ sentPackets s.server.log
  acked : ∀ pid ∈ ackedIds s.server.log, ∃ pkt ∈ s.received, pkt.packetId = some pid

section Linked

variable {S : VpnServer Conn} {addr : SocketAddr} {s : Link Conn} {w : World Conn}

lemma ackedIds_step (S : VpnServer Conn) (addr : SocketAddr) (w : World Conn) (e : Event Conn) :
    ackedIds (step S addr w e).log = ackedIds w.log ∨ ∃ env ctrl replayPid,
      e = .control env ctrl replayPid ∧
        ackedIds (step S addr w e).log = ackedIds w.log ++ ctrl.acks := by
  have hown := (step_reacts S addr w e).own (f := Effect.acked?) fun e he => by
    cases e <;> first | rfl | cases he
  obtain ⟨es, ho, hl⟩ := hown
  have hids : ackedIds (step S addr w e).log =
      ackedIds w.log ++ (es.filterMap Effect.acked?).flatten := by
    unfold ackedIds
    rw [← List.flatten_append]
    exact congrArg List.flatten hl
  have hack : ∀ ctrl, ((ackOf ctrl).filterMap Effect.acked?).flatten = ctrl.acks := by
    intro ctrl
    unfold ackOf
    rcases h : ctrl.acks <;> simp [Effect.acked?]
  rw [hids]
  cases ho with
  | @fed env ctrl replayPid h hop =>
    refine .inr ⟨env, ctrl, replayPid, rfl, ?_⟩
    rw [List.filterMap_append, List.flatten_append, hack]
    simp [Effect.acked?]
  | @heard env ctrl replayPid h hop => exact .inr ⟨env, ctrl, replayPid, rfl, by rw [hack]⟩
  | _ => exact .inl (by simp [Effect.acked?])

lemma Linked.step (h : Linked s) {e : LinkEvent Conn} (he : Honest s e) :
    Linked (linkStep S addr s e) := by
  cases e with
  | deliver pkt =>
    refine ⟨h.numbered, fun p hp => ?_, fun pid hpid => ?_⟩
    · rcases List.mem_append.mp hp with hp | hp
      · exact h.delivered p hp
      · exact List.mem_singleton.mp hp ▸ he
    · obtain ⟨p, hp, hid⟩ := h.acked pid hpid
      exact ⟨p, List.mem_append_left _ hp, hid⟩
  | server e =>
    have hr := step_reacts S addr s.server e
    refine ⟨h.numbered.react hr, fun p hp => ?_, fun pid hpid => ?_⟩
    · exact (hr.log.filterMap Effect.sent?).subset (h.delivered p hp)
    · rcases ackedIds_step S addr s.server e with hsame | ⟨env, ctrl, replayPid, rfl, hnew⟩
      · exact h.acked pid (hsame ▸ hpid)
      · rcases List.mem_append.mp (hnew ▸ hpid) with hpid | hpid
        · exact h.acked pid hpid
        · exact he pid hpid

lemma Seals.cases {e : Event Conn} (h : Seals S addr w e) :
    (∃ env pkt, e = .tun env pkt) ∨ ∃ env, e = .ping env := by
  have hown := (step_reacts S addr w e).own (f := Effect.sealed?) fun e he => by
    cases e <;> first | rfl | cases he
  obtain ⟨es, ho, hl⟩ := hown
  have hne : es.filterMap Effect.sealed? ≠ [] := fun hnil =>
    h (hl.trans (by rw [hnil, List.append_nil]))
  cases ho with
  | tun slot hs => exact .inl ⟨_, _, rfl⟩
  | ping slot hs => exact .inr ⟨_, rfl⟩
  | fed | heard => exact absurd (by simp [ackOf, Effect.sealed?]) hne
  | _ => exact absurd (by simp [Effect.sealed?]) hne

lemma Linked.received (h : Linked s) (hlen : (built s.server.log).length ≤ 2 ^ 32)
    {pkt : ControlPacket} (hb : pkt ∈ built s.server.log) {pid : UInt32}
    (hpid : pkt.packetId = some pid) (ha : pid ∈ ackedIds s.server.log) : pkt ∈ s.received := by
  obtain ⟨p, hp, hid⟩ := h.acked pid ha
  obtain ⟨e, he, hsent⟩ := List.mem_filterMap.mp (h.delivered p hp)
  have hes : Effect.sent p ∈ s.server.log := by
    cases e <;> cases hsent
    exact he
  rcases h.numbered.sent p hes with hnone | hbuilt
  · rw [hid] at hnone
    cases hnone
  · rwa [h.numbered.unique hlen hb hbuilt (hpid.trans hid.symm)]

end Linked

lemma linked_started (S : VpnServer Conn) (o : Opening Conn) :
    Linked (⟨started S o, []⟩ : Link Conn) := by
  refine ⟨numbered_started S o, ?_, fun pid hpid => ?_⟩
  · intro pkt hpkt
    cases hpkt
  · unfold ackedIds at hpid
    rw [filterMap_started (fun e he => by cases e <;> first | rfl | cases he) o] at hpid
    cases hpid

/-- **The client has the keys first.** In every run of the two parties in which data is
sealed behind a rekey only once the rekey's reply has been acknowledged, the client has
received the reply of the rekey whose slot the server seals a packet under. -/
theorem sealed_after_reply (S : VpnServer Conn) (addr : SocketAddr) (o : Opening Conn)
    (es : List (LinkEvent Conn))
    (hh : AllMeet (linkStep S addr) Honest ⟨started S o, []⟩ es)
    (hc : AllMeet (linkStep S addr) AckedFirst ⟨started S o, []⟩ es) :
    ∀ s e, (s, LinkEvent.server e) ∈ trace (linkStep S addr) ⟨started S o, []⟩ es →
      Seals S addr s.server e → ∀ r ∈ switchedReply s.server.log, r.Received s.received := by
  intro s e hx hs r hr
  have hl := (trace_keeps (fun _ _ h he => h.step he) (linked_started S o) hh _ hx).1
  have hcx : ∀ r ∈ switchedReply s.server.log, r.Carried ∧
      (∀ pkt ∈ r.packets, ∃ pid ∈ ackedIds s.server.log, pkt.packetId = some pid) ∧
        (built s.server.log).length ≤ 2 ^ 32 := by
    rcases hs.cases with ⟨env, pkt, rfl⟩ | ⟨env, rfl⟩ <;> exact hc _ hx
  obtain ⟨hcar, hack, hlen⟩ := hcx r hr
  refine ⟨hcar, fun pkt hp => ?_⟩
  obtain ⟨pid, hpid, hid⟩ := hack pkt hp
  exact hl.received hlen ((packets_built s.server.log).2 r hr pkt hp) hid hpid

/-- A client's rekey to key id 1. All the client knows before its key exchange has arrived;
what the server answers to that is lost. -/
def lossyRekey : List (LinkEvent Plain) :=
  let opened := run (step plainServer plainAddr) (started plainServer plainOpening)
    [establishing, .control (plainEnv 2) (clientPacket .controlSoftResetV1 1 2 []) none]
  [.server establishing,
   .server (.control (plainEnv 2) (clientPacket .controlSoftResetV1 1 2 []) none)] ++
  (sentPackets opened.log).map .deliver ++
  [.server (.control (plainEnv 2) (clientPacket .controlV1 1 3 (clientKm2 4)) none)]

def lateReply : List (LinkEvent Plain) :=
  let lost := run (linkStep plainServer plainAddr) ⟨started plainServer plainOpening, []⟩ lossyRekey
  let ids := (sentPackets lost.server.log).filterMap ControlPacket.packetId
  (sentPackets lost.server.log).map .deliver ++
  [.server (.control (plainEnv 2) ⟨.ackV1, 1, 5, ids, some 7, none, []⟩ none)]

instance (S : VpnServer Conn) (addr : SocketAddr) (w : World Conn) (e : Event Conn) :
    Decidable (Seals S addr w e) := inferInstanceAs (Decidable (_ ≠ _))

lemma lateReply_facts :
    (switchedReply (run (linkStep plainServer plainAddr) ⟨started plainServer plainOpening, []⟩
        (lossyRekey ++ lateReply)).server.log).isSome ∧
      Seals plainServer plainAddr (run (linkStep plainServer plainAddr)
        ⟨started plainServer plainOpening, []⟩ (lossyRekey ++ lateReply)).server
        (.tun (plainEnv 2) [0x45]) ∧
      AllMeet (linkStep plainServer plainAddr) Honest ⟨started plainServer plainOpening, []⟩
        (lossyRekey ++ lateReply ++ [.server (.tun (plainEnv 2) [0x45])]) ∧
      AllMeet (linkStep plainServer plainAddr) AckedFirst ⟨started plainServer plainOpening, []⟩
        (lossyRekey ++ lateReply ++ [.server (.tun (plainEnv 2) [0x45])]) := by
  decide +kernel

theorem sealed_after_reply_late :
    let s := run (linkStep plainServer plainAddr) ⟨started plainServer plainOpening, []⟩
      (lossyRekey ++ lateReply)
    (switchedReply s.server.log).isSome ∧
      Seals plainServer plainAddr s.server (.tun (plainEnv 2) [0x45]) ∧
      ∀ r ∈ switchedReply s.server.log, r.Received s.received := by
  obtain ⟨hswitched, hseals, hh, hc⟩ := lateReply_facts
  refine ⟨hswitched, hseals, ?_⟩
  refine sealed_after_reply plainServer plainAddr plainOpening _ hh hc _ _ ?_ hseals
  rw [trace_append]
  exact List.mem_append_right _ (List.mem_singleton_self _)

lemma lossyRekey_facts :
    AllMeet (linkStep plainServer plainAddr) Honest ⟨started plainServer plainOpening, []⟩
        (lossyRekey ++ [.server (.tun (plainEnv 2) [0x45])]) ∧
      Seals plainServer plainAddr (run (linkStep plainServer plainAddr)
        ⟨started plainServer plainOpening, []⟩ lossyRekey).server (.tun (plainEnv 2) [0x45]) ∧
      (switchedReply (run (linkStep plainServer plainAddr) ⟨started plainServer plainOpening, []⟩
        lossyRekey).server.log).isSome ∧
      ∀ r ∈ switchedReply (run (linkStep plainServer plainAddr)
          ⟨started plainServer plainOpening, []⟩ lossyRekey).server.log,
        r.packets ≠ [] ∧ ∀ pkt ∈ r.packets, pkt ∉ (run (linkStep plainServer plainAddr)
          ⟨started plainServer plainOpening, []⟩ lossyRekey).received := by
  decide +kernel

/-- With the reply lost, the next packet from the TUN is sealed under the new slot all the
same: the client has received nothing of the reply. -/
theorem sealed_before_reply :
    let s := run (linkStep plainServer plainAddr) ⟨started plainServer plainOpening, []⟩ lossyRekey
    AllMeet (linkStep plainServer plainAddr) Honest ⟨started plainServer plainOpening, []⟩
        (lossyRekey ++ [.server (.tun (plainEnv 2) [0x45])]) ∧
      Seals plainServer plainAddr s.server (.tun (plainEnv 2) [0x45]) ∧
      ∃ r ∈ switchedReply s.server.log, r.packets ≠ [] ∧ ∀ pkt ∈ r.packets, pkt ∉ s.received := by
  obtain ⟨hh, hseals, hswitched, hlost⟩ := lossyRekey_facts
  obtain ⟨r, hr⟩ := Option.isSome_iff_exists.mp hswitched
  exact ⟨hh, hseals, r, hr, hlost r hr⟩

end Javs
