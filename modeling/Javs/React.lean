import Javs.Refine

/-!
What an event can do to a session, said once.

Every event leads to one of the reactions below. Invariants of a session are proved
against them; the handlers are not looked into again.
-/

namespace Javs

open Lib Lib.Proc Relation M

variable {Conn : Type} (S : VpnServer Conn) (addr : SocketAddr)

def accepts (w : World Conn) (replayPid : Option UInt32) : Bool :=
  replayPid.all fun pid => (w.sess.tlsAuthReplay.checkAndSet pid).1

/-- The acknowledgements of a packet are processed, if it has any. -/
def Abs.hear (a : Abs) (ctrl : ControlPacket) : Abs :=
  if ctrl.acks.isEmpty then a else a.tell (.acked ctrl.acks)

/-! ### Control packets -/

section Control

variable {w : World Conn} {replayPid : Option UInt32}

lemma checkReplay_some (w : World Conn) (pid : UInt32) :
    checkReplay (some pid) w =
      (if (w.sess.tlsAuthReplay.checkAndSet pid).1 then .ok ()
        else .error (.bail s!"tls-auth replay rejected pid={pid}"),
       { w with sess := { w.sess with
          tlsAuthReplay := (w.sess.tlsAuthReplay.checkAndSet pid).2 } }) := by
  unfold checkReplay
  dsimp only
  rw [get_bind, put_bind]
  split <;> rfl

lemma acceptControl_rejected (ctrl : ControlPacket) (h : accepts w replayPid = false) :
    ∃ e w', acceptControl ctrl replayPid w = (.error e, w') ∧ w'.abs = w.abs := by
  rcases replayPid with _ | pid
  · simp [accepts] at h
  · simp only [accepts, Option.all_some] at h
    unfold acceptControl
    rw [modify_bind, bind_error (by rw [checkReplay_some, if_neg (by simp [h])])]
    exact ⟨_, _, rfl, rfl⟩

lemma checkReplay_accepted (h : accepts w replayPid = true) :
    ∃ replay, checkReplay replayPid w =
      (.ok (), { w with sess := { w.sess with tlsAuthReplay := replay } }) := by
  rcases replayPid with _ | pid
  · exact ⟨w.sess.tlsAuthReplay, rfl⟩
  · rw [checkReplay_some, if_pos (by simpa [accepts] using h)]
    exact ⟨_, rfl⟩

lemma processAcks_apply (ctrl : ControlPacket) (w : World Conn) :
    ∃ w', processAcks ctrl.acks w = (.ok (), w') ∧ w'.abs = w.abs.hear ctrl ∧
      w'.env = w.env ∧ ∃ unacked, w'.sess = { w.sess with unacked } := by
  unfold processAcks Abs.hear
  split
  · exact ⟨w, rfl, rfl, rfl, _, rfl⟩
  · rename_i hne
    refine ⟨_, rfl, ?_, rfl, ?_⟩
    · simp [Session.processAcks, hne, World.abs, Abs.tell]
    · simp only [Session.processAcks, if_neg hne]
      exact ⟨_, rfl⟩

def Session.owed (s : Session Conn) : Option UInt32 → List UInt32
  | some pid => if s.receivedPids.contains pid then s.pendingAcks else s.pendingAcks ++ [pid]
  | none => s.pendingAcks

lemma noteReceived_apply (w : World Conn) (pid : Option UInt32) :
    ∃ w', noteReceived pid w = (.ok (), w') ∧ w'.abs = w.abs ∧ w'.env = w.env ∧
      w'.sess.rekey = w.sess.rekey ∧ w'.sess.pendingAcks = w.sess.owed pid := by
  rcases pid with _ | pid
  · exact ⟨w, rfl, rfl, rfl, rfl, rfl⟩
  · refine ⟨_, rfl, ?_, rfl, ?_, ?_⟩ <;> dsimp only [Session.noteReceived, Session.owed] <;>
      split <;> rfl

lemma acceptControl_accepted (ctrl : ControlPacket) (h : accepts w replayPid = true) :
    ∃ w', acceptControl ctrl replayPid w = (.ok (), w') ∧ w'.abs = w.abs.hear ctrl ∧
      w'.env = w.env ∧ w'.sess.rekey = w.sess.rekey ∧
      w'.sess.pendingAcks = w.sess.owed ctrl.packetId := by
  obtain ⟨replay, h1⟩ := checkReplay_accepted
    (w := { w with sess := { w.sess with lastSeen := w.env.now } }) h
  obtain ⟨w2, h2, a2, e2, unacked, s2⟩ := processAcks_apply ctrl
    { w with sess := { w.sess with lastSeen := w.env.now, tlsAuthReplay := replay } }
  obtain ⟨w3, h3, a3, e3, r3, p3⟩ := noteReceived_apply w2 ctrl.packetId
  refine ⟨w3, ?_, a3.trans a2, e3.trans e2, ?_, ?_⟩
  · unfold acceptControl
    rw [modify_bind, bind_ok h1, bind_ok h2, h3]
  · rw [r3, s2]
  · rw [p3, s2]
    rfl

end Control

/-! ### Data packets -/

section Data

variable {S} {w : World Conn} {pkt : Bytes}

/-- The packet finds the slot of its key id at position `i`, authenticates under it as
`plaintext`, and is new to its replay window. -/
structure Opens (S : VpnServer Conn) (w : World Conn) (pkt : Bytes) (dp : DataPacketV2) (i : Fin 2)
    (slot : KeySlot) (plaintext : Bytes) : Prop where
  parse : DataPacketV2.parse pkt = .ok dp
  position : w.sess.position dp.keyId = some i
  found : w.sess.slots i = some slot
  authentic : ∃ aad, Bytes.slice pkt 0 8 = .ok aad ∧
    slot.cipher.open' S.prims dp.packetId aad dp.ciphertext = .ok plaintext
  fresh : (slot.replay.checkAndSet dp.packetId).1 = true

def World.opened (w : World Conn) (pkt : Bytes) (dp : DataPacketV2) (i : Fin 2)
    (slot : KeySlot) : World Conn :=
  { w with
    sess := { w.sess with
      toSlotTable := w.sess.setSlot i
        { slot with replay := (slot.replay.checkAndSet dp.packetId).2 }
      lastSeen := w.env.now }
    log := w.log ++ [.opened slot.cipher dp.packetId pkt] }

lemma setSlot_self {t : SlotTable} {i : Fin 2} {slot : KeySlot} (h : t.slots i = some slot) :
    t.setSlot i slot = t := by
  unfold SlotTable.setSlot
  rw [← h, Function.update_eq_self]

lemma decryptLocked_opens {dp : DataPacketV2} {i : Fin 2} {slot : KeySlot} {plaintext : Bytes}
    (h : Opens S w pkt dp i slot plaintext) :
    decryptLocked S pkt w = (.ok plaintext, w.opened pkt dp i slot) := by
  obtain ⟨hparse, hpos, hfound, ⟨aad, haad, hopen⟩, hfresh⟩ := h
  unfold decryptLocked
  rw [hparse, haad, bind_ok (ofExcept_apply _ _), bind_ok (ofExcept_apply _ _), get_bind]
  simp only [hpos, hfound]
  rw [hopen, bind_ok (ofExcept_apply _ _), put_bind, if_neg (by simp [hfresh]), modify_bind]
  rfl

lemma decryptLocked_cases (w : World Conn) (pkt : Bytes) :
    (∃ e, decryptLocked S pkt w = (.error e, w)) ∨
    ∃ dp i slot plaintext, Opens S w pkt dp i slot plaintext ∧
      decryptLocked S pkt w = (.ok plaintext, w.opened pkt dp i slot) := by
  by_cases hopen : ∃ dp i slot plaintext, Opens S w pkt dp i slot plaintext
  · obtain ⟨dp, i, slot, plaintext, ho⟩ := hopen
    exact .inr ⟨dp, i, slot, plaintext, ho, decryptLocked_opens ho⟩
  left
  unfold decryptLocked
  rcases hp : DataPacketV2.parse pkt with e | dp
  · exact ⟨e, rfl⟩
  rcases ha : Bytes.slice pkt 0 8 with e | aad
  · exact ⟨e, rfl⟩
  rw [bind_ok (ofExcept_apply _ _), bind_ok (ofExcept_apply _ _), get_bind]
  rcases hi : w.sess.position dp.keyId with _ | i <;> dsimp only
  · exact ⟨_, rfl⟩
  rcases hs : w.sess.slots i with _ | slot <;> dsimp only
  · exact ⟨_, rfl⟩
  rcases ho : slot.cipher.open' S.prims dp.packetId aad dp.ciphertext with e | plaintext
  · exact ⟨e, rfl⟩
  have hc : (slot.replay.checkAndSet dp.packetId).1 = false := Bool.eq_false_iff.mpr fun hc =>
    hopen ⟨dp, i, slot, plaintext, hp, hi, hs, ⟨aad, ha, ho⟩, hc⟩
  have hsame := ReplayWindow.checkAndSet_of_refused hc
  rw [bind_ok (ofExcept_apply _ _), put_bind, if_pos (by simp [hc]), hsame, setSlot_self hs]
  exact ⟨_, rfl⟩

lemma decryptAndForward_opens {dp : DataPacketV2} {i : Fin 2} {slot : KeySlot} {plaintext : Bytes}
    (h : Opens S w pkt dp i slot plaintext) :
    decryptAndForward S pkt w =
      if plaintext = pingPayload then (.ok (), w.opened pkt dp i slot)
      else if w.env.tunOpen then (.ok (), { w.opened pkt dp i slot with
        log := (w.opened pkt dp i slot).log ++ [.tun pkt plaintext] })
      else (.error (.bail "tun writer channel closed"), w.opened pkt dp i slot) := by
  have henv : (w.opened pkt dp i slot).env = w.env := rfl
  unfold decryptAndForward
  rw [bind_ok (decryptLocked_opens h), handOver, get_bind, henv]
  split
  · rfl
  split <;> rfl

lemma decryptAndForward_cases (w : World Conn) (pkt : Bytes) :
    (∃ e, decryptAndForward S pkt w = (.error e, w)) ∨
    ∃ dp i slot plaintext, Opens S w pkt dp i slot plaintext ∧
      ((decryptAndForward S pkt w).2 = w.opened pkt dp i slot ∨
       (decryptAndForward S pkt w).2 = { w.opened pkt dp i slot with
          log := (w.opened pkt dp i slot).log ++ [.tun pkt plaintext] }) := by
  rcases decryptLocked_cases (S := S) w pkt with ⟨e, he⟩ | ⟨dp, i, slot, plaintext, ho, -⟩
  · exact .inl ⟨e, bind_error he⟩
  · refine .inr ⟨dp, i, slot, plaintext, ho, ?_⟩
    rw [decryptAndForward_opens ho]
    split
    · exact .inl rfl
    split
    · exact .inr rfl
    · exact .inl rfl

/-- The session after its active slot sealed a packet. -/
def Abs.seal (a : Abs) (slot : KeySlot) : Abs :=
  { a with table := a.table.setSlot a.table.activeSlotIdx
            { slot with dataPidOut := slot.dataPidOut + 1 },
           log := a.log ++ [.sealed slot.cipher slot.dataPidOut] }

/-- `a` is `b`, or `b` with one packet more on the wire. -/
def Abs.MayWire (b a : Abs) : Prop := a = b ∨ ∃ bytes, a = b.tell (.wire bytes)

lemma transportSend_mayWire (w : World Conn) (bytes : Bytes) :
    w.abs.MayWire (transportSend bytes w).2.abs := by
  unfold transportSend
  rw [get_bind]
  rcases w.env.sends with _ | ⟨_ | _, rest⟩
  · exact .inr ⟨bytes, rfl⟩
  · rcases w.sess.transport <;> exact .inl rfl
  · exact .inr ⟨bytes, rfl⟩

lemma buildDataPacket_send {slot : KeySlot} (hs : w.sess.activeSlot = some slot)
    (plaintext : Bytes) :
    (w.abs.seal slot).MayWire
      ((do let bytes ← buildDataPacket S plaintext; transportSend bytes) w).2.abs := by
  unfold buildDataPacket
  rw [bind_apply, get_bind]
  simp only [hs]
  rw [put_bind]
  rcases slot.cipher.seal' S.prims slot.dataPidOut
    (Session.dataHeader w.sess.peerId slot.keyId slot.dataPidOut) plaintext with e | ct
  · exact .inl rfl
  · exact transportSend_mayWire _ _

end Data

/-! ### Reactions -/

/-- What an event can do to the session it finds as `w`. -/
inductive Reacts (w : World Conn) : Event Conn → Abs → Prop
  | rejected {env ctrl replayPid} (h : accepts w replayPid = false) :
      Reacts w (.control env ctrl replayPid) w.abs
  | main {env ctrl replayPid a} (h : accepts w replayPid = true) (hop : ctrl.op = .controlV1)
      (hr : isRekey w.sess ctrl = false)
      (hm : ReflTransGen (Move S addr w.log.length .main)
        ((w.abs.hear ctrl).tell (.feed .main ctrl)) a) :
      Reacts w (.control env ctrl replayPid) a
  | rekeying {env ctrl replayPid a} (h : accepts w replayPid = true) (hop : ctrl.op = .controlV1)
      (t : Track) (hr : w.abs.rekey = some t) (hk : t.keyId = ctrl.keyId)
      (hm : ReflTransGen (Move S addr w.log.length .rekey)
        ((w.abs.hear ctrl).tell (.feed (.rekey t.keyId) ctrl)) a) :
      Reacts w (.control env ctrl replayPid) a
  | softReset {env ctrl replayPid a} (h : accepts w replayPid = true)
      (hop : ctrl.op = .controlSoftResetV1) (hr : w.sess.rekey = none)
      (hs : w.sess.state = .established) (reply) (hp : reply.packetId = some w.sess.nextPacketId)
      (hm : ReflTransGen (Move S addr w.log.length .send)
        (((w.abs.hear ctrl).startRekey ctrl.keyId).build (.reset reply)) a) :
      Reacts w (.control env ctrl replayPid) a
  | heard {env ctrl replayPid} (h : accepts w replayPid = true) (hop : ctrl.op ≠ .controlV1) :
      Reacts w (.control env ctrl replayPid) (w.abs.hear ctrl)
  | refused {env pkt} : Reacts w (.data env pkt) w.abs
  | opened {env pkt} (dp i slot plaintext) (h : Opens S w pkt dp i slot plaintext) :
      Reacts w (.data env pkt) (w.opened pkt dp i slot).abs
  | forwarded {env pkt} (dp i slot plaintext) (h : Opens S w pkt dp i slot plaintext) :
      Reacts w (.data env pkt) ((w.opened pkt dp i slot).abs.tell (.tun pkt plaintext))
  | tunIdle {env pkt} : Reacts w (.tun env pkt) w.abs
  | tun {env pkt a} (slot) (h : w.sess.activeSlot = some slot)
      (ha : (w.abs.seal slot).MayWire a) : Reacts w (.tun env pkt) a
  | pingIdle {env} : Reacts w (.ping env) w.abs
  | ping {env a} (slot) (h : w.sess.activeSlot = some slot)
      (ha : (w.abs.seal slot).MayWire a) : Reacts w (.ping env) a
  | rekeyIdle {env} : Reacts w (.rekey env) w.abs
  | rekey {env a} (hr : w.sess.rekey = none) (hs : w.sess.state = .established)
      (pkt) (hp : pkt.packetId = some w.sess.nextPacketId)
      (hm : ReflTransGen (Move S addr w.log.length .send)
        ((w.abs.startRekey ((w.sess.activeKeyId + 1) &&& 7)).build (.reset pkt)) a) :
      Reacts w (.rekey env) a
  | retransmit {env a} (hm : ReflTransGen (Move S addr w.log.length .send) w.abs a) :
      Reacts w (.retransmit env) a
  | shutdown {env a} (hm : ReflTransGen (Move S addr w.log.length .flush) w.abs a) :
      Reacts w (.shutdown env) a
  | shared {tab} : Reacts w (.shared tab) { w.abs with tab }

section Steps

variable {S addr} {w : World Conn} {ctrl : ControlPacket} {replayPid : Option UInt32}

def ackOf (ctrl : ControlPacket) : List Effect :=
  if ctrl.acks.isEmpty then [] else [.acked ctrl.acks]

lemma log_hear (a : Abs) (ctrl : ControlPacket) : (a.hear ctrl).log = a.log ++ ackOf ctrl := by
  unfold Abs.hear ackOf
  split
  · exact (List.append_nil _).symm
  · rfl

lemma hear_core (a : Abs) (ctrl : ControlPacket) : (a.hear ctrl).core = a.core := by
  unfold Abs.hear
  split <;> rfl

lemma hear_state (a : Abs) (ctrl : ControlPacket) : (a.hear ctrl).state = a.state := by
  unfold Abs.hear
  split <;> rfl

lemma hear_nextPid (a : Abs) (ctrl : ControlPacket) : (a.hear ctrl).nextPid = a.nextPid := by
  unfold Abs.hear
  split <;> rfl

lemma at_hear {w' : World Conn} (h : w'.abs = w.abs.hear ctrl) :
    At w.log.length w'.sess.state false false w' ∧ installs (w'.log.drop w.log.length) = [] := by
  have hl : w'.log = w.log ++ ackOf ctrl := (congrArg Abs.log h).trans (log_hear _ _)
  have hdrop : w'.log.drop w.log.length = ackOf ctrl := by rw [hl, List.drop_left]
  refine ⟨⟨by simp [hl], rfl, ?_, ?_⟩, ?_⟩ <;>
    simp only [assignedSince, assignedV6Since, hdrop, ackOf] <;> split <;> rfl

lemma sendReset_moves {n : ℕ} {v : World Conn} {pkt : ControlPacket} {a : Abs}
    (hv : v.abs = a.build (.reset pkt)) :
    ReflTransGen (Move S addr n .send) (a.build (.reset pkt)) (sendAndTrack S pkt v).2.abs := by
  have hl : v.log = a.log ++ [.reset pkt] := congrArg Abs.log hv
  refine steps_of_meets (meets_sendAndTrack (c := v.abs.core)) ⟨rfl, .inr ?_⟩ hv
  rw [hl]
  exact List.mem_filterMap.mpr ⟨.reset pkt, by simp, rfl⟩

lemma isRekey_iff {s : Session Conn} :
    isRekey s ctrl = true ↔ ∃ rk, s.rekey = some rk ∧ rk.keyId = ctrl.keyId := by
  unfold isRekey
  rcases s.rekey with _ | rk <;> simp

lemma handleSoftReset_reacts {w' : World Conn} (h : accepts w replayPid = true)
    (hop : ctrl.op = .controlSoftResetV1) (ha : w'.abs = w.abs.hear ctrl)
    (hr : w'.sess.rekey = w.sess.rekey) (env : Env Conn) :
    Reacts S addr w (.control env ctrl replayPid) (handleSoftReset S ctrl w').2.abs := by
  have hheard : Reacts S addr w (.control env ctrl replayPid) w'.abs :=
    ha ▸ .heard h (by simp [hop])
  unfold handleSoftReset
  rw [get_bind]
  -- a SOFT_RESET is answered in one case only; in the others it is just acknowledged
  by_cases hrk : w'.sess.rekey.isSome
  · rw [if_pos hrk]
    exact hheard
  rw [if_neg hrk]
  by_cases hst : w'.sess.state ≠ .established
  · rw [if_pos hst]
    exact hheard
  rw [if_neg hst]
  rcases w'.env.conn with _ | conn
  · exact hheard
  dsimp only
  rw [put_bind]
  have hpid : w'.sess.nextPacketId = w.sess.nextPacketId :=
    (congrArg Abs.nextPid ha).trans (hear_nextPid _ _)
  have hstate : w'.sess.state = w.sess.state :=
    (congrArg Abs.state ha).trans (congrArg Abs.state (hear_core w.abs ctrl))
  refine .softReset h hop (hr ▸ by simpa using hrk) (hstate ▸ not_not.mp hst) _ ?_
    (sendReset_moves ?_)
  · rw [← hpid]; rfl
  · rw [← ha]; rfl

lemma handleLocked_dispatch (S : VpnServer Conn) (addr : SocketAddr) (ctrl : ControlPacket)
    (h : accepts w replayPid = true) :
    ∃ v, handleLocked S addr ctrl replayPid w = dispatch S addr ctrl v ∧
      v.abs = w.abs.hear ctrl ∧ v.env = w.env ∧ v.sess.rekey = w.sess.rekey ∧
      v.sess.pendingAcks = w.sess.owed ctrl.packetId := by
  obtain ⟨v, h', hv⟩ := acceptControl_accepted ctrl h
  exact ⟨v, by rw [handleLocked, bind_ok h'], hv⟩

lemma dispatch_main (hop : ctrl.op = .controlV1) (hr : isRekey w.sess ctrl = false) :
    dispatch S addr ctrl w = handleMainControl S addr ctrl w := by
  unfold dispatch
  rw [hop]
  dsimp only
  rw [get_bind, hr]
  rfl

lemma dispatch_rekey (hop : ctrl.op = .controlV1) (hr : isRekey w.sess ctrl = true) :
    dispatch S addr ctrl w = handleRekeyControl S ctrl w := by
  unfold dispatch
  rw [hop]
  dsimp only
  rw [get_bind, hr]
  rfl

lemma dispatch_softReset (hop : ctrl.op = .controlSoftResetV1) :
    dispatch S addr ctrl w = handleSoftReset S ctrl w := by
  unfold dispatch
  rw [hop]

lemma isRekey_congr {s s' : Session Conn} (h : s'.rekey = s.rekey) (ctrl : ControlPacket) :
    isRekey s' ctrl = isRekey s ctrl := by
  unfold isRekey
  rw [h]

lemma control_reacts (w : World Conn) (env : Env Conn) (ctrl : ControlPacket)
    (replayPid : Option UInt32) :
    Reacts S addr w (.control env ctrl replayPid)
      (handleLocked S addr ctrl replayPid { w with env }).2.abs := by
  rcases h : accepts { w with env } replayPid
  · obtain ⟨e, w', h', ha⟩ := acceptControl_rejected ctrl h
    rw [handleLocked, bind_error h', ha]
    exact .rejected h
  obtain ⟨w', h', ha, -, hr, -⟩ := handleLocked_dispatch (w := { w with env }) S addr ctrl h
  rw [h']
  rcases hop : ctrl.op
  case controlV1 =>
    rcases hk : isRekey w'.sess ctrl
    · rw [dispatch_main hop hk]
      refine .main h hop ((isRekey_congr hr ctrl).symm.trans hk) ?_
      have hm := @handleMainControl_moves _ S addr _ _ (at_hear ha).1 (at_hear ha).2 ctrl
      rw [ha] at hm
      exact hm
    · rw [dispatch_rekey hop hk]
      obtain ⟨rk, hrk, hid⟩ := isRekey_iff.mp hk
      have ht : w.abs.rekey = some rk.track :=
        congrArg (Option.map RekeyTrack.track) (hr.symm.trans hrk)
      refine .rekeying h hop rk.track ht hid ?_
      have hm := @handleRekeyControl_moves _ S addr w.log.length _ _ hrk ctrl
      rw [ha] at hm
      exact hm
  case controlSoftResetV1 =>
    rw [dispatch_softReset hop]
    exact handleSoftReset_reacts (w := w) h hop ha hr env
  all_goals
    unfold dispatch
    rw [hop]
    exact ha ▸ .heard h (by simp [hop])

lemma handleLocked_main (h : accepts w replayPid = true) (hop : ctrl.op = .controlV1)
    (hr : isRekey w.sess ctrl = false) (env : Env Conn) :
    ∃ w', w'.abs = w.abs.hear ctrl ∧
      handleLocked S addr ctrl replayPid { w with env } = handleMainControl S addr ctrl w' := by
  obtain ⟨v, hv, ha, -, hrk, -⟩ := handleLocked_dispatch (w := { w with env }) S addr ctrl h
  exact ⟨v, ha, hv.trans (dispatch_main hop ((isRekey_congr hrk ctrl).trans hr))⟩

lemma rekeyTick_reacts (w : World Conn) (env : Env Conn) :
    Reacts S addr w (.rekey env) (rekeyTick S { w with env }).2.abs := by
  unfold rekeyTick
  rw [get_bind]
  by_cases hst : w.sess.state ≠ .established ∨ w.sess.rekey.isSome
  · rw [if_pos hst]
    exact .rekeyIdle
  rw [if_neg hst]
  split
  · exact .rekeyIdle
  rcases env.conn with _ | conn
  · exact .rekeyIdle
  rw [not_or, not_not] at hst
  exact .rekey (by simpa using hst.2) hst.1 _ rfl (sendReset_moves rfl)

lemma forwardLocked_seals {slot : KeySlot} (hs : w.sess.activeSlot = some slot) (ipPkt : Bytes) :
    (w.abs.seal slot).MayWire (forwardLocked S ipPkt w).2.abs := by
  unfold forwardLocked
  rw [get_bind, if_neg (by simp [hs])]
  exact buildDataPacket_send hs _

lemma forwardLocked_reacts (w : World Conn) (env : Env Conn) (ipPkt : Bytes) :
    Reacts S addr w (.tun env ipPkt) (forwardLocked S ipPkt { w with env }).2.abs := by
  rcases hs : w.sess.activeSlot with _ | slot
  · unfold forwardLocked
    rw [get_bind, if_pos (by simp [hs])]
    exact .tunIdle
  · exact .tun slot hs (forwardLocked_seals (w := { w with env }) hs _)

lemma pingTick_reacts (w : World Conn) (env : Env Conn) :
    Reacts S addr w (.ping env) (pingTick S { w with env }).2.abs := by
  unfold pingTick
  rw [get_bind]
  split
  · exact .pingIdle
  · rename_i h
    rw [not_or, Option.isNone_iff_eq_none, ← ne_eq, Option.ne_none_iff_exists'] at h
    obtain ⟨slot, hs⟩ := h.2
    exact .ping slot hs (buildDataPacket_send (w := { w with env }) hs _)

lemma meets_rewrap {n : ℕ} (stale : List Bytes) :
    Meets (fun _ => True) (Steps S addr n .send) (rewrap S stale) fun _ _ => True := by
  induction stale with
  | nil => exact meets_pure fun _ _ => trivial
  | cons inner rest ih =>
    have hwrap : Meets (fun _ => True) (Steps S addr n .send)
        (do return [← wrapForWire S inner]) fun _ _ => True :=
      meets_bind (meets_wrapForWire stable_true _) fun _ => meets_pure fun _ _ => trivial
    exact meets_bind (meets_recover hwrap fun _ => trivial)
      fun _ => meets_bind ih fun _ => meets_pure fun _ _ => trivial

lemma meets_retransmitTick {n : ℕ} :
    Meets (fun _ => True) (Steps S addr n .send) (retransmitTick S) fun _ _ => True := by
  unfold retransmitTick
  refine meets_get_bind fun w _ => ?_
  refine meets_bind (M := fun _ _ => True) (meets_put ?_ trivial) fun _ => ?_
  · rintro _ rfl
    exact .of_eq rfl
  · exact meets_bind (meets_rewrap _) fun wires => meets_forM fun bytes _ =>
      meets_recover (meets_transportSend stable_true _) fun _ => trivial

lemma meets_shutdownClient {n : ℕ} :
    Meets (fun _ => True) (Steps S addr n .flush) (shutdownClient S) fun _ _ => True := by
  unfold shutdownClient
  refine meets_get_bind fun w _ => ?_
  split
  · exact meets_pure fun _ _ => trivial
  · refine meets_bind ((meets_sendPlaintext (c := w.abs) _).conseq
      (fun _ h => congrArg World.abs h) fun _ _ h => h) fun _ => ?_
    exact (meets_flushOutgoing (c := w.abs.core) (.inr rfl)).conseq
      (fun _ h => congrArg Abs.core h) fun _ _ _ => trivial

/-- **Every event is one of the reactions.** -/
theorem step_reacts (S : VpnServer Conn) (addr : SocketAddr) (w : World Conn) (e : Event Conn) :
    Reacts S addr w e (step S addr w e).abs := by
  cases e with
  | control env ctrl replayPid => exact control_reacts w env ctrl replayPid
  | data env pkt =>
    rcases decryptAndForward_cases (S := S) { w with env } pkt with
      ⟨e, h⟩ | ⟨dp, i, slot, plaintext, ho, h | h⟩
    · rw [step, h]
      exact .refused
    · rw [step, h]
      exact .opened dp i slot plaintext ⟨ho.1, ho.2, ho.3, ho.4, ho.5⟩
    · rw [step, h]
      exact .forwarded dp i slot plaintext ⟨ho.1, ho.2, ho.3, ho.4, ho.5⟩
  | tun env ipPkt => exact forwardLocked_reacts w env ipPkt
  | ping env => exact pingTick_reacts w env
  | rekey env => exact rekeyTick_reacts w env
  | retransmit env =>
    exact .retransmit (steps_of_meets (w := { w with env }) meets_retransmitTick trivial rfl)
  | shutdown env =>
    exact .shutdown (steps_of_meets (w := { w with env }) meets_shutdownClient trivial rfl)
  | shared tab => exact .shared

def Abs.opening (tab : Tables) (peerId : UInt32) : Abs :=
  ⟨.empty, .handshaking, none, none, none, peerId, 0, tab, []⟩

lemma started_moves (S : VpnServer Conn) (addr : SocketAddr) (o : Opening Conn) :
    ∃ reply : ControlPacket, reply.packetId = some 0 ∧
      ReflTransGen (Move S addr 0 .send) ((Abs.opening o.tab o.peerId).build (.reset reply))
        (started S o).abs :=
  ⟨_, rfl, sendReset_moves rfl⟩

end Steps

/-! ### The effects an event has of its own -/

def ctxOf (w : World Conn) (ctrl : ControlPacket) : Ctx :=
  if isRekey w.sess ctrl then .rekey ctrl.keyId else .main

/-- The effects that only an event can have, in the order it has them. -/
inductive Own (w : World Conn) : Event Conn → List Effect → Prop
  | rejected {env ctrl replayPid} (h : accepts w replayPid = false) :
      Own w (.control env ctrl replayPid) []
  | fed {env ctrl replayPid} (h : accepts w replayPid = true) (hop : ctrl.op = .controlV1) :
      Own w (.control env ctrl replayPid) (ackOf ctrl ++ [.feed (ctxOf w ctrl) ctrl])
  | heard {env ctrl replayPid} (h : accepts w replayPid = true) (hop : ctrl.op ≠ .controlV1) :
      Own w (.control env ctrl replayPid) (ackOf ctrl)
  | refused {env pkt} : Own w (.data env pkt) []
  | opened {env pkt} (dp i slot plaintext) (h : Opens S w pkt dp i slot plaintext) :
      Own w (.data env pkt) [.opened slot.cipher dp.packetId pkt]
  | forwarded {env pkt} (dp i slot plaintext) (h : Opens S w pkt dp i slot plaintext) :
      Own w (.data env pkt) [.opened slot.cipher dp.packetId pkt, .tun pkt plaintext]
  | idle {e} (hc : ∀ env ctrl pid, e ≠ .control env ctrl pid) (hd : ∀ env pkt, e ≠ .data env pkt) :
      Own w e []
  | tun {env pkt} (slot) (h : w.sess.activeSlot = some slot) :
      Own w (.tun env pkt) [.sealed slot.cipher slot.dataPidOut]
  | ping {env} (slot) (h : w.sess.activeSlot = some slot) :
      Own w (.ping env) [.sealed slot.cipher slot.dataPidOut]

section Own

variable {S addr} {w : World Conn} {e : Event Conn} {a : Abs} {β : Type} {f : Effect → Option β}

lemma filterMap_mayWire {b : Abs} (hf : ∀ e : Effect, e.ofEvent = false → f e = none)
    (h : b.MayWire a) : a.log.filterMap f = b.log.filterMap f := by
  rcases h with rfl | ⟨bytes, rfl⟩
  · rfl
  · simp [Abs.tell, hf (.wire bytes) rfl]

theorem Reacts.own (h : Reacts S addr w e a)
    (hf : ∀ e : Effect, e.ofEvent = false → f e = none) :
    ∃ es, Own S w e es ∧ a.log.filterMap f = w.log.filterMap f ++ es.filterMap f := by
  cases h with
  | rejected h => exact ⟨_, .rejected h, by simp [World.abs]⟩
  | main h hop hr hm =>
    refine ⟨_, .fed h hop, ?_⟩
    rw [filterMap_moves hf hm, Abs.tell, log_hear]
    simp [ctxOf, hr, World.abs]
  | rekeying h hop t hr hk hm =>
    refine ⟨_, .fed h hop, ?_⟩
    obtain ⟨rk, hrk, rfl⟩ := Option.map_eq_some_iff.mp hr
    -- the key id decides which of the two channels is fed
    have hk' : isRekey w.sess _ = true := isRekey_iff.mpr ⟨rk, hrk, hk⟩
    rw [filterMap_moves hf hm, Abs.tell, log_hear]
    simp [ctxOf, hk', World.abs, hk]
  | softReset h hop hr hs reply hp hm =>
    refine ⟨_, .heard h (by simp [hop]), ?_⟩
    rw [filterMap_moves hf hm, Abs.build, Abs.startRekey, log_hear]
    simp [World.abs, hf (.reset reply) rfl]
  | heard h hop =>
    refine ⟨_, .heard h hop, ?_⟩
    rw [log_hear]
    simp [World.abs]
  | refused => exact ⟨_, .refused, by simp [World.abs]⟩
  | opened dp i slot plaintext h => exact ⟨_, .opened dp i slot plaintext h, by
      simp [World.abs, World.opened]⟩
  | forwarded dp i slot plaintext h => exact ⟨_, .forwarded dp i slot plaintext h, by
      simp [World.abs, World.opened, Abs.tell]⟩
  | tunIdle => exact ⟨_, .idle (by simp) (by simp), by simp [World.abs]⟩
  | tun slot h ha =>
    refine ⟨_, .tun slot h, ?_⟩
    rw [filterMap_mayWire hf ha, Abs.seal]
    simp [World.abs]
  | pingIdle => exact ⟨_, .idle (by simp) (by simp), by simp [World.abs]⟩
  | ping slot h ha =>
    refine ⟨_, .ping slot h, ?_⟩
    rw [filterMap_mayWire hf ha, Abs.seal]
    simp [World.abs]
  | rekeyIdle => exact ⟨_, .idle (by simp) (by simp), by simp [World.abs]⟩
  | rekey hr hs pkt hp hm =>
    refine ⟨_, .idle (by simp) (by simp), ?_⟩
    rw [filterMap_moves hf hm, Abs.build, Abs.startRekey]
    simp [World.abs, hf (.reset pkt) rfl]
  | retransmit hm => exact ⟨_, .idle (by simp) (by simp), by
      rw [filterMap_moves hf hm]; simp [World.abs]⟩
  | shutdown hm => exact ⟨_, .idle (by simp) (by simp), by
      rw [filterMap_moves hf hm]; simp [World.abs]⟩
  | shared => exact ⟨_, .idle (by simp) (by simp), by simp [World.abs]⟩

lemma log_moves {n : ℕ} {l : Lane} {b : Abs} (h : ReflTransGen (Move S addr n l) b a) :
    b.log <+: a.log := by
  induction h with
  | refl => exact List.prefix_rfl
  | tail _ hm ih =>
    rcases hm.log with e | ⟨e, -, hl⟩
    · rwa [e]
    · exact ih.trans (hl ▸ List.prefix_append _ _)

lemma Reacts.log (h : Reacts S addr w e a) : w.log <+: a.log := by
  have hhear : ∀ ctrl, w.log <+: (w.abs.hear ctrl).log := fun ctrl => by
    rw [log_hear]
    exact List.prefix_append _ _
  have hseal : ∀ slot, (w.abs.seal slot).MayWire a → w.log <+: a.log := by
    rintro slot (rfl | ⟨bytes, rfl⟩)
    · exact List.prefix_append _ _
    · exact (List.prefix_append _ _).trans (List.prefix_append _ _)
  cases h with
  | rejected | refused | tunIdle | pingIdle | rekeyIdle | shared => exact List.prefix_rfl
  | main hacc hop hr hm =>
    exact (hhear _).trans ((List.prefix_append _ _).trans (log_moves hm))
  | rekeying hacc hop t hr hk hm =>
    exact (hhear _).trans ((List.prefix_append _ _).trans (log_moves hm))
  | softReset hacc hop hr hs reply hp hm =>
    exact (hhear _).trans ((List.prefix_append _ _).trans (log_moves hm))
  | heard hacc hop => exact hhear _
  | opened dp i slot plaintext ho => exact List.prefix_append _ _
  | forwarded dp i slot plaintext ho =>
    exact (List.prefix_append _ _).trans (List.prefix_append _ _)
  | tun slot hs ha => exact hseal slot ha
  | ping slot hs ha => exact hseal slot ha
  | rekey hr hs pkt hp hm => exact (List.prefix_append _ _).trans (log_moves hm)
  | retransmit hm => exact log_moves hm
  | shutdown hm => exact log_moves hm

lemma filterMap_started (hf : ∀ e : Effect, e.ofEvent = false → f e = none) (o : Opening Conn) :
    (started S o).log.filterMap f = [] := by
  obtain ⟨reply, -, hm⟩ := started_moves S ⟨.v4 0, 0⟩ o
  change (started S o).abs.log.filterMap f = []
  rw [filterMap_moves hf hm]
  simp [Abs.build, Abs.opening, hf (.reset reply) rfl]

end Own

end Javs
