import Javs.Flush

/-!
What only a packet changes.

The time a session was last heard of, the replay window of its envelope and the id of its
client are written before the dispatch of a control packet, or when a data packet has been
accepted. The handlers behind the dispatch and the periodic tasks leave them alone; nor do they
ever send the reply to a `HARD_RESET`, which greets a new session only.
-/

namespace Javs

open Lib Proc Bytes

variable {Conn α : Type} {S : VpnServer Conn} {w w' : World Conn}

/-! ### The stamp of a session -/

structure Stamp where
  lastSeen : ℕ
  tlsAuthReplay : ReplayWindow
  clientSessionId : SessionId

def Session.stamp (s : Session Conn) : Stamp := ⟨s.lastSeen, s.tlsAuthReplay, s.clientSessionId⟩

def greetings (log : List Effect) : List ControlPacket :=
  (sentPackets log).filter fun pkt => pkt.op = .controlHardResetServerV2

def World.stamp (w : World Conn) : Stamp × List ControlPacket := (w.sess.stamp, greetings w.log)

lemma greetings_append (log log' : List Effect) :
    greetings (log ++ log') = greetings log ++ greetings log' := by
  simp only [greetings, sentPackets_append, List.filter_append]

lemma stamp_tell {e : Effect} (he : greetings [e] = []) (hs : w'.sess.stamp = w.sess.stamp)
    (hl : w'.log = w.log ++ [e]) : w'.stamp = w.stamp := by
  rw [World.stamp, hs, hl, greetings_append, he, List.append_nil]
  rfl

lemma stamp_emit {e : Effect} (he : greetings [e] = []) :
    Keeps World.stamp (M.emit e : M Conn Unit) :=
  keeps_modify fun _ => stamp_tell he rfl rfl

lemma stamp_recover {m : M Conn α} (h : Keeps World.stamp m) (a : α) :
    Keeps World.stamp (M.recover m a) := by
  refine keeps_tryCatch h fun e => ?_
  rcases e with msg | msg
  · exact keeps_pure a
  · exact keeps_throw _

lemma stamp_context (msg : String) (x : Res α) :
    Keeps World.stamp (M.context msg x : M Conn α) := by
  rcases x with (_ | _) | a
  · exact keeps_throw _
  · exact keeps_ofExcept _
  · exact keeps_ofExcept _

/-! ### Sending -/

section Handlers

variable (S)

lemma stamp_wrapForWire (inner : Bytes) : Keeps World.stamp (wrapForWire S inner) := by
  refine keeps_get_bind fun w => ?_
  split
  · exact keepsAt_bind (keepsAt_set rfl) fun _ => keeps_ofExcept _
  · exact keepsAt_bind (keepsAt_set rfl) fun _ => keeps_ofExcept _
  · exact keeps_pure _ w

lemma stamp_transportSend (bytes : Bytes) :
    Keeps World.stamp (transportSend bytes : M Conn Unit) := by
  refine keeps_get_bind fun w => ?_
  split
  · refine keepsAt_bind (keepsAt_set rfl) fun _ => ?_
    split <;> exact keeps_throw _
  · exact keepsAt_set (stamp_tell rfl rfl rfl)

lemma stamp_sendAndTrack {pkt : ControlPacket} (hop : pkt.op ≠ .controlHardResetServerV2) :
    Keeps World.stamp (sendAndTrack S pkt) := by
  refine keeps_bind (stamp_wrapForWire S _) fun wire => ?_
  refine keeps_bind (stamp_transportSend wire) fun _ => ?_
  have hsilent : greetings [.sent pkt] = [] := by simp [greetings, sentPackets, Effect.sent?, hop]
  refine keeps_bind (stamp_emit hsilent) fun _ => ?_
  split
  · exact keeps_modify fun _ => rfl
  · exact keeps_pure _

lemma stamp_sendChunk (ctx : Ctx) (keyId : UInt8) (chunk : Bytes) :
    Keeps World.stamp (sendChunk S ctx keyId chunk) :=
  keeps_get_bind fun _ => keepsAt_bind (keepsAt_set (stamp_tell rfl rfl rfl)) fun _ =>
    stamp_sendAndTrack S nofun

lemma stamp_flushOutgoing : Keeps World.stamp (flushOutgoing S) := by
  refine keeps_get_bind fun w =>
    keepsAt_bind (keepsAt_set (stamp_tell rfl rfl rfl)) fun _ => ?_
  split
  · exact keeps_forM fun _ _ => stamp_sendChunk S _ _ _
  split
  · refine keeps_bind (keeps_modify fun _ => stamp_tell rfl rfl rfl) fun _ => ?_
    refine keeps_bind (stamp_wrapForWire S _) fun wire => ?_
    exact keeps_bind (stamp_transportSend wire) fun _ => stamp_emit rfl
  · exact keeps_pure _

lemma stamp_sendPlaintext (data : Bytes) : Keeps World.stamp (sendPlaintext S data) := by
  refine keeps_get_bind fun w => keepsAt_bind (keepsAt_set rfl) fun _ => ?_
  split
  · exact keeps_pure _
  · exact keeps_throw _

/-! ### The rekey track -/

lemma stamp_flushRekeyOutgoing : Keeps World.stamp (flushRekeyOutgoing S) := by
  rw [flushRekeyOutgoing_eq]
  refine keeps_get_bind fun w => ?_
  rcases w.sess.rekey with _ | rk
  · exact keeps_pure _ w
  refine keepsAt_bind (keepsAt_set (stamp_tell rfl rfl rfl)) fun _ => ?_
  split
  · exact keeps_pure _
  · exact keeps_forM fun _ _ => stamp_sendChunk S _ _ _

lemma stamp_driveRekeyControlPlane : Keeps World.stamp (driveRekeyControlPlane S) := by
  rw [driveRekeyControlPlane_eq]
  refine keeps_get_bind fun w => ?_
  rcases w.sess.rekey with _ | rk
  · exact keeps_pure _ w
  dsimp only
  split
  · exact keeps_pure _ w
  refine keepsAt_bind (keeps_ofExcept _ w) fun pop => ?_
  rcases pop with ⟨km, n⟩ | _
  · refine keeps_bind (keeps_modify fun _ => stamp_tell rfl rfl rfl) fun _ => ?_
    refine keeps_bind (keeps_modify fun _ => rfl) fun _ => ?_
    split
    · exact keeps_modify fun _ => stamp_tell rfl rfl rfl
    · exact keeps_throw _
  · exact keeps_pure _

lemma stamp_finishRekey : Keeps World.stamp (finishRekey : M Conn Unit) := by
  rw [finishRekey_eq]
  refine keeps_get_bind fun w => ?_
  rcases w.sess.rekey with _ | rk
  · exact keeps_pure _ w
  dsimp only
  split
  · exact keepsAt_set (stamp_tell rfl rfl rfl)
  · exact keeps_pure _ w

lemma stamp_handleRekeyControl (ctrl : ControlPacket) :
    Keeps World.stamp (handleRekeyControl S ctrl) := by
  rw [handleRekeyControl]
  refine keeps_get_bind fun w => ?_
  rcases w.sess.rekey with _ | rk
  · exact keeps_pure _ w
  dsimp only
  rcases rk.tls.feed S.rustls ctrl.payload with ⟨tls, fed⟩
  refine keepsAt_bind (keepsAt_set (stamp_tell rfl rfl rfl)) fun _ => ?_
  refine keeps_bind (stamp_context _ _) fun _ => ?_
  have hrest : Keeps World.stamp (do
      driveRekeyControlPlane S
      flushRekeyOutgoing S
      finishRekey) :=
    keeps_bind (stamp_driveRekeyControlPlane S) fun _ =>
      keeps_bind (stamp_flushRekeyOutgoing S) fun _ => stamp_finishRekey
  split
  · exact keeps_bind (keeps_modify fun _ => stamp_tell rfl rfl rfl) fun _ => hrest
  · exact hrest

/-! ### The main track -/

lemma stamp_allocateIp : Keeps World.stamp (allocateIp S) := by
  refine keeps_get_bind fun w => ?_
  dsimp only
  split
  · exact keeps_throw _ w
  · exact keepsAt_bind (keepsAt_set rfl) fun _ => keeps_pure _

lemma stamp_assignIp (addr : SocketAddr) (cc : Option ClientConfig) :
    Keeps World.stamp (assignIp S addr cc) := by
  have hchoose : Keeps World.stamp (chooseIp S cc) := by
    refine keeps_get_bind fun w => ?_
    split
    · split
      · exact keeps_throw _ w
      · exact keeps_pure _ w
    · exact keeps_throw _ w
    · exact stamp_allocateIp S w
  exact keeps_bind hchoose fun _ =>
    keeps_bind (keeps_modify fun _ => stamp_tell rfl rfl rfl) fun _ => keeps_pure _

lemma stamp_assignIpV6 (addr : SocketAddr) : Keeps World.stamp (assignIpV6 S addr) := by
  have halloc : Keeps World.stamp (allocateIpV6 S) := by
    refine keeps_get_bind fun w => ?_
    split
    · exact keeps_pure _ w
    · exact keeps_throw _ w
    · split
      · exact keeps_throw _ w
      · exact keepsAt_bind (keepsAt_set rfl) fun _ => keeps_pure _
  refine keeps_bind halloc fun ip6 => ?_
  rcases ip6 with _ | v6
  · exact keeps_pure _
  · exact keeps_bind (keeps_modify fun _ => stamp_tell rfl rfl rfl) fun _ => keeps_pure _

lemma stamp_handlePushRequest (addr : SocketAddr) :
    Keeps World.stamp (handlePushRequest S addr) := by
  refine keeps_get_bind fun w => keepsAt_bind (stamp_assignIp S addr _ w) fun ip => ?_
  refine keeps_bind (stamp_assignIpV6 S addr) fun ip6 => ?_
  exact keeps_bind (stamp_sendPlaintext S _) fun _ => keeps_modify fun _ => rfl

lemma stamp_handleKeyMethod2 (km : ClientKeyMethod2) :
    Keeps World.stamp (handleKeyMethod2 S km) := by
  refine keeps_bind (keeps_modify fun _ => rfl) fun _ => keeps_bind ?_ fun _ => ?_
  · refine keeps_get_bind fun w => ?_
    rcases w.sess.prfSlot S.prims 0 with e | slot
    · exact keeps_throw e w
    · exact keepsAt_set (stamp_tell rfl rfl rfl)
  · refine keeps_get_bind fun w => keepsAt_bind (stamp_sendPlaintext S _ w) fun _ => ?_
    exact keeps_modify fun _ => rfl

lemma stamp_drainPlaintext (n : ℕ) : Keeps World.stamp (drainPlaintext n : M Conn Unit) := by
  refine keeps_get_bind fun w => ?_
  rcases w.sess.tls.drainTo n with e | tls
  · exact keeps_throw e w
  · exact keepsAt_set rfl

lemma stamp_driveRound (addr : SocketAddr) : Keeps World.stamp (driveRound S addr) := by
  refine keeps_get_bind fun w => ?_
  split
  · refine keepsAt_bind (keeps_ofExcept _ w) fun pop => ?_
    rcases pop with ⟨km, n⟩ | _
    · refine keeps_bind (stamp_drainPlaintext n) fun _ => ?_
      exact keeps_bind (stamp_handleKeyMethod2 S km) fun _ => keeps_pure _
    · exact keeps_pure _
  · split
    · exact keeps_pure _ w
    · refine keepsAt_bind (stamp_drainPlaintext _ w) fun _ => ?_
      split
      · exact keeps_bind (stamp_handlePushRequest S addr) fun _ => keeps_pure _
      · exact keeps_pure _
  · split
    · exact keeps_pure _ w
    · refine keepsAt_bind (stamp_drainPlaintext _ w) fun _ => ?_
      split
      · exact keeps_bind (keeps_modify fun _ => rfl) fun _ => keeps_pure _
      · exact keeps_pure _
  · exact keeps_pure _ w

lemma stamp_driveControlPlane (addr : SocketAddr) :
    Keeps World.stamp (driveControlPlane S addr) := by
  have hloop (fuel : ℕ) : Keeps World.stamp (driveLoop S addr fuel) := by
    induction fuel with
    | zero => exact keeps_pure _
    | succ fuel ih =>
      refine keeps_bind (stamp_driveRound S addr) fun more => ?_
      split
      · exact ih
      · exact keeps_pure _
  exact keeps_get_bind fun w => hloop _ w

lemma stamp_handleMainControl (addr : SocketAddr) (ctrl : ControlPacket) :
    Keeps World.stamp (handleMainControl S addr ctrl) := by
  rw [handleMainControl]
  refine keeps_get_bind fun w => ?_
  rcases w.sess.tls.feed S.rustls ctrl.payload with ⟨tls, fed⟩
  refine keepsAt_bind (keepsAt_set (stamp_tell rfl rfl rfl)) fun _ => ?_
  refine keeps_bind (stamp_context _ _) fun _ => ?_
  have hrest : Keeps World.stamp (do driveControlPlane S addr; flushOutgoing S) :=
    keeps_bind (stamp_driveControlPlane S addr) fun _ => stamp_flushOutgoing S
  dsimp only
  split
  · refine keeps_bind (keeps_modify fun v => stamp_tell rfl ?_ rfl) fun _ => hrest
    unfold Session.finalizeKeys
    split <;> rfl
  · exact hrest

/-! ### Dispatch -/

lemma stamp_dispatch (addr : SocketAddr) (ctrl : ControlPacket) :
    Keeps World.stamp (dispatch S addr ctrl) := by
  rw [dispatch]
  split
  · refine keeps_get_bind fun w => ?_
    split
    · exact stamp_handleRekeyControl S ctrl w
    · exact stamp_handleMainControl S addr ctrl w
  · refine keeps_get_bind fun w => ?_
    split
    · exact keeps_pure _ w
    split
    · exact keeps_pure _ w
    split
    · exact keeps_throw _ w
    · exact keepsAt_bind (keepsAt_set (stamp_tell rfl rfl rfl)) fun _ =>
        stamp_sendAndTrack S nofun
  · exact keeps_pure _

/-! ### The periodic tasks -/

lemma stamp_sendData (plaintext : Bytes) :
    Keeps World.stamp (do transportSend (← buildDataPacket S plaintext)) := by
  refine keeps_bind (keeps_get_bind fun w => ?_) fun _ => stamp_transportSend _
  split
  · exact keeps_throw _ w
  · refine keepsAt_bind (keepsAt_set (stamp_tell rfl rfl rfl)) fun _ => ?_
    exact keeps_bind (keeps_ofExcept _) fun _ => keeps_pure _

lemma stamp_rekeyTick : Keeps World.stamp (rekeyTick S) := by
  refine keeps_get_bind fun w => ?_
  split
  · exact keeps_pure _ w
  split
  · exact keeps_pure _ w
  split
  · exact keeps_pure _ w
  · exact keepsAt_bind (keepsAt_set (stamp_tell rfl rfl rfl)) fun _ =>
      stamp_sendAndTrack S nofun

lemma stamp_retransmitTick : Keeps World.stamp (retransmitTick S) := by
  have hrewrap (stale : List Bytes) : Keeps World.stamp (rewrap S stale) := by
    induction stale with
    | nil => exact keeps_pure _
    | cons inner rest ih =>
      refine keeps_bind (stamp_recover ?_ _) fun wire => keeps_bind ih fun _ => keeps_pure _
      exact keeps_bind (stamp_wrapForWire S inner) fun _ => keeps_pure _
  refine keeps_get_bind fun w => keepsAt_bind (keepsAt_set rfl) fun _ => ?_
  refine keeps_bind (hrewrap _) fun wires => keeps_forM fun bytes _ => ?_
  exact stamp_recover (stamp_transportSend bytes) ()

def Event.isOwn : Event Conn → Bool
  | .control .. | .data .. => false
  | _ => true

/-- **Without a packet of the client the stamp stays**, and no session is greeted. -/
theorem step_stamp (addr : SocketAddr) (w : World Conn) {e : Event Conn} (he : e.isOwn = true) :
    (step S addr w e).stamp = w.stamp := by
  have hdata (env : Env Conn) (plaintext : Bytes) {p : Prop} [Decidable p] :
      KeepsAt World.stamp (if p then pure () else do
        transportSend (← buildDataPacket S plaintext)) { w with env } := by
    split
    · exact keeps_pure _ _
    · exact stamp_sendData S plaintext _
  cases e with
  | control | data => cases he
  | tun env ipPkt => exact hdata env ipPkt
  | ping env => exact hdata env pingPayload
  | rekey env => exact stamp_rekeyTick S { w with env }
  | retransmit env => exact stamp_retransmitTick S { w with env }
  | shutdown env =>
    refine (keeps_get_bind fun v => ?_ : Keeps World.stamp (shutdownClient S)) { w with env }
    split
    · exact keeps_pure _ v
    · exact keeps_bind (stamp_sendPlaintext S _) (fun _ => stamp_flushOutgoing S) v
  | shared tab => rfl

end Handlers

/-! ### Packets of the client -/

/-- The window once a packet of an envelope has been checked; without an envelope it is not
consulted. -/
def ReplayWindow.after (r : ReplayWindow) (replayPid : Option UInt32) : ReplayWindow :=
  (replayPid.map fun pid => (r.checkAndSet pid).2).getD r

def World.seenNow (w : World Conn) : World Conn :=
  { w with sess := { w.sess with lastSeen := w.env.now } }

lemma handleLocked_eq (S : VpnServer Conn) (addr : SocketAddr) (ctrl : ControlPacket)
    (replayPid : Option UInt32) (w : World Conn) :
    handleLocked S addr ctrl replayPid w = (do
      checkReplay replayPid
      processAcks ctrl.acks
      noteReceived ctrl.packetId
      dispatch S addr ctrl) w.seenNow := by
  rw [handleLocked, acceptControl, bind_bind, modify_bind, bind_bind]
  simp only [bind_bind]
  rfl

lemma handleLocked_refused (S : VpnServer Conn) (addr : SocketAddr) (ctrl : ControlPacket)
    {pid : UInt32} (h : (w.sess.tlsAuthReplay.checkAndSet pid).1 = false) :
    handleLocked S addr ctrl (some pid) w =
      (.error (.bail s!"tls-auth replay rejected pid={pid}"), w.seenNow) := by
  have hw : (w.seenNow.sess.tlsAuthReplay.checkAndSet pid).1 = false := h
  rw [handleLocked_eq, bind_error]
  rw [checkReplay_some, ReplayWindow.checkAndSet_of_refused hw, if_neg (by simp [hw])]

lemma stamp_accepted (S : VpnServer Conn) (addr : SocketAddr) (ctrl : ControlPacket)
    (h : w.sess.lastSeen = w.env.now) : KeepsAt World.stamp (do
      processAcks ctrl.acks
      noteReceived ctrl.packetId
      dispatch S addr ctrl) w := by
  obtain ⟨v, hacks, hv, henv⟩ : ∃ v, processAcks ctrl.acks w = (.ok (), v) ∧
      v.stamp = w.stamp ∧ v.env = w.env := by
    unfold processAcks
    split
    · exact ⟨w, rfl, rfl, rfl⟩
    · refine ⟨_, rfl, stamp_tell rfl ?_ rfl, rfl⟩
      unfold Session.processAcks
      split <;> rfl
  -- the packet is noted at the time that stands there already
  have hseen : v.sess.lastSeen = v.env.now := by
    rw [henv, ← h]
    exact congrArg (·.1.lastSeen) hv
  have hnote : KeepsAt World.stamp (noteReceived ctrl.packetId) v := by
    rcases ctrl.packetId with _ | pid
    · exact keeps_pure _ v
    · have hstamp : (v.sess.noteReceived pid v.env.now).stamp = v.sess.stamp := by
        rw [← hseen]
        unfold Session.noteReceived
        split <;> rfl
      exact congrArg (·, greetings v.log) hstamp
  rw [KeepsAt, bind_ok hacks]
  exact (keepsAt_bind hnote fun _ => stamp_dispatch S addr ctrl).trans hv

/-- **A control packet**, refused or not, leaves its time and its mark in the window. -/
theorem step_control_stamp (S : VpnServer Conn) (addr : SocketAddr) (w : World Conn)
    (env : Env Conn) (ctrl : ControlPacket) (replayPid : Option UInt32) :
    (step S addr w (.control env ctrl replayPid)).stamp =
      (⟨env.now, w.sess.tlsAuthReplay.after replayPid, w.sess.clientSessionId⟩,
        greetings w.log) := by
  rcases replayPid with _ | pid
  · rw [step, handleLocked_eq]
    exact stamp_accepted S addr ctrl (w := World.seenNow { w with env }) rfl
  rcases hok : (w.sess.tlsAuthReplay.checkAndSet pid).1
  · have hrefused := handleLocked_refused (w := { w with env }) S addr ctrl hok
    rw [step, hrefused, ReplayWindow.after, Option.map_some, Option.getD_some,
      ReplayWindow.checkAndSet_of_refused hok]
    rfl
  · have hcheck := checkReplay_some (World.seenNow { w with env }) pid
    rw [if_pos (by exact hok)] at hcheck
    rw [step, handleLocked_eq, bind_ok hcheck]
    exact stamp_accepted S addr ctrl rfl

/-- **A data packet** leaves its time, if it is accepted. -/
theorem step_data_stamp (S : VpnServer Conn) (addr : SocketAddr) (w : World Conn) (env : Env Conn)
    (pkt : Bytes) : (step S addr w (.data env pkt)).stamp = w.stamp ∨
      (step S addr w (.data env pkt)).stamp =
        ({ w.sess.stamp with lastSeen := env.now }, greetings w.log) := by
  have hopened (dp : DataPacketV2) (i : Fin 2) (slot : KeySlot) :
      (World.opened { w with env } pkt dp i slot).stamp = (World.seenNow { w with env }).stamp :=
    stamp_tell rfl rfl rfl
  rcases decryptAndForward_cases (S := S) { w with env } pkt with
    ⟨e, h⟩ | ⟨dp, i, slot, plaintext, -, h | h⟩ <;> rw [step, h]
  · exact .inl rfl
  · exact .inr (hopened dp i slot)
  · refine .inr (Eq.trans ?_ (hopened dp i slot))
    exact stamp_tell (e := .tun pkt plaintext) rfl rfl rfl

/-! ### A new session -/

def Opening.reply (o : Opening Conn) : ControlPacket :=
  ((newSession o.ctrl o.replayPid o.peerId o.transport o.conn o.env).makeHardResetReply
    (o.ctrl.packetId.getD 0)).1

lemma started_stamp (S : VpnServer Conn) (o : Opening Conn) :
    (started S o).stamp =
      (⟨o.env.now, ReplayWindow.new.after o.replayPid, o.ctrl.sessionId⟩,
        if o.env.sends.head? = some false then [] else [o.reply]) := by
  obtain ⟨w, hw⟩ : ∃ w : World Conn, w = ⟨((newSession o.ctrl o.replayPid o.peerId o.transport
      o.conn o.env).makeHardResetReply (o.ctrl.packetId.getD 0)).2, o.tab, o.env,
      [.reset o.reply]⟩ := ⟨_, rfl⟩
  have hstart : started S o = (sendAndTrack S o.reply w).2 := by
    rw [hw]
    rfl
  obtain ⟨r, w', h, ⟨_, _, hsess⟩, -, hcase⟩ := sendAndTrack_apply (S := S) o.reply rfl w
  rw [hstart, h, World.stamp]
  refine Prod.ext ?_ ?_
  · rw [hsess, hw]
    rcases o.replayPid <;> rfl
  · have hsends : w.env.sends = o.env.sends := by rw [hw]
    have hlog : greetings w.log = [] := by rw [hw]; rfl
    rw [hsends] at hcase
    rcases hcase with ⟨hf, -, hp⟩ | ⟨hf, -, hp⟩ <;> obtain ⟨es, hes, hp⟩ := hp.log
    · rw [if_pos hf, hes, greetings_append, hlog, greetings, hp.sent]
      rfl
    · rw [if_neg hf, hes, greetings_append, hlog, greetings, hp.sent]
      rfl

end Javs
