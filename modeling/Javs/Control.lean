import Javs.World

/-!
The control plane: everything `handle_control_packet` does once it holds the session.
-/

namespace Javs

open Lib Bytes M

variable {Conn : Type} (S : VpnServer Conn)

/-! ### Sending -/

/-- Wrap an encoded control packet in the configured envelope (tls-crypt > tls-auth > none). -/
def wrapForWire (inner : Bytes) : M Conn Bytes := do
  let w ← get
  match S.tlsCrypt, S.tlsAuth with
  | some tc, _ =>
    let (pid, s) := w.sess.nextTlsAuthPid
    put { w with sess := s }
    Proc.ofExcept (tc.wrap S.prims inner pid w.env.unixTime)
  | none, some ta =>
    let (pid, s) := w.sess.nextTlsAuthPid
    put { w with sess := s }
    Proc.ofExcept (ta.wrap S.prims inner pid w.env.unixTime)
  | none, none => pure inner

def sendAndTrack (pkt : ControlPacket) : M Conn Unit := do
  let encoded := pkt.encode
  let wire ← wrapForWire S encoded
  transportSend wire
  emit (.sent pkt)
  match pkt.packetId with
  | some p => modify fun w => { w with sess := w.sess.recordSent p encoded w.env.now }
  | none => pure ()

/-- One round of the two flush loops: build the packet, then send it. -/
def sendChunk (ctx : Ctx) (keyId : UInt8) (chunk : Bytes) : M Conn Unit := do
  let w ← get
  let (pkt, s) := w.sess.makeControl keyId chunk
  put { w with sess := s, log := w.log ++ [.frag ctx pkt] }
  sendAndTrack S pkt

def flushOutgoing : M Conn Unit := do
  let w ← get
  let (tls, out) := w.sess.tls.takeOutgoing S.rustls
  put { w with sess := { w.sess with tls }, log := w.log ++ [.drained .main out] }
  if !out.isEmpty then
    let keyId := w.sess.activeKeyId
    forM (chunks maxTlsPayloadPerControl out) (sendChunk S .main keyId)
  else if !w.sess.pendingAcks.isEmpty then
    let pids := w.sess.pendingAcks
    let ack := w.sess.makeAck w.sess.activeKeyId pids
    modify fun w => { w with sess := { w.sess with pendingAcks := [] },
                             log := w.log ++ [.ack ack] }
    let wire ← wrapForWire S ack.encode
    transportSend wire
    emit (.sent ack)
  else pure ()

def flushRekeyOutgoing : M Conn Unit := do
  let w ← get
  match w.sess.rekey with
  | none => pure ()
  | some rk =>
    let (tls, out) := rk.tls.takeOutgoing S.rustls
    put { w with sess := { w.sess with rekey := some { rk with tls } },
                 log := w.log ++ [.drained (.rekey rk.keyId) out] }
    if out.isEmpty then pure ()
    else
      let rk ← unwrap (← get).sess.rekey
      forM (chunks maxTlsPayloadPerControl out) (sendChunk S (.rekey rk.keyId) rk.keyId)

def drainPlaintext (n : ℕ) : M Conn Unit := do
  let w ← get
  let tls ← Proc.ofExcept (w.sess.tls.drainTo n)
  put (w.setTls tls)

def sendPlaintext (data : Bytes) : M Conn Unit := do
  let w ← get
  let (tls, ok) := w.sess.tls.sendPlaintext S.rustls data
  put { w with sess := { w.sess with tls } }
  if ok then pure () else throw (.bail "tls write_all")

/-! ### The rekey track -/

def serverKeyMethod2 (r1 r2 : Bytes) : Bytes :=
  let linkMtu := UInt16.ofNat (min (S.cfg.tunMtu.toNat + 42) 65535)
  ServerKeyMethod2.encode ⟨r1, r2, buildOptionsString linkMtu S.cfg.tunMtu, [], [], buildPeerInfo⟩

/-- Put the slot into the position that is not active. -/
def installSlot (slot : KeySlot) : M Conn Unit :=
  modify fun w => { w with sess := { w.sess with toSlotTable := w.sess.installSlot slot },
                           log := w.log ++ [.installed slot] }

def driveRekeyControlPlane : M Conn Unit := do
  let w ← get
  let stateIsKx := w.sess.rekey.any fun r => r.state = .keyExchange
  if !stateIsKx then pure ()
  else
    let rk ← unwrap w.sess.rekey
    match ← Proc.ofExcept (ClientKeyMethod2.tryParse rk.tls.plaintextIn) with
    | .needMore => pure ()
    | .ready km n =>
      let rk ← unwrap (← get).sess.rekey
      let (rkKeyId, sR1, sR2) := (rk.keyId, rk.serverRandom1, rk.serverRandom2)
      let keyData := deriveOpenvpnKeyData S.prims km.preMaster km.random1 sR1 km.random2 sR2
        (putU64 w.sess.clientSessionId) (putU64 w.sess.serverSessionId)
      installSlot (.fresh rkKeyId keyData)
      let rk ← unwrap (← get).sess.rekey
      let drained ← Proc.ofExcept (rk.tls.drainTo n)
      let reply := serverKeyMethod2 S sR1 sR2
      let (tls, ok) := drained.sendPlaintext S.rustls reply
      modifySess fun s => { s with rekey := some { rk with tls } }
      if ok then
        modify fun w => { w with sess := { w.sess with
                                   rekey := some { rk with tls, keyMethodSent := true } },
                                 log := w.log ++ [.replied rk.keyId] }
      else throw (.bail "tls write_all")

/-- Once the key-method-2 reply is out, switch the active slot and drop the track. -/
def finishRekey : M Conn Unit := do
  let w ← get
  let finalize := w.sess.rekey.any RekeyTrack.keyMethodSent
  if finalize then
    let rk ← unwrap w.sess.rekey
    let before := w.sess.toSlotTable
    let after := (before.promoteSlot rk.keyId).2
    put { w with sess := { w.sess with toSlotTable := after, rekey := none,
                                       lastRekeyAt := w.env.now },
                 log := w.log ++ [.rekeyed rk.keyId before after] }
  else pure ()

section Unwraps

/-! Wherever the track is unwrapped it is there, and so are the bytes that are drained. -/

lemma flushRekeyOutgoing_eq : flushRekeyOutgoing S = (do
    let w ← get
    match w.sess.rekey with
    | none => pure ()
    | some rk =>
      let (tls, out) := rk.tls.takeOutgoing S.rustls
      put { w with sess := { w.sess with rekey := some { rk with tls } },
                   log := w.log ++ [.drained (.rekey rk.keyId) out] }
      if out.isEmpty then pure ()
      else forM (chunks maxTlsPayloadPerControl out) (sendChunk S (.rekey rk.keyId) rk.keyId)) := by
  funext w
  simp only [flushRekeyOutgoing, Proc.get_bind]
  rcases w.sess.rekey with _ | rk
  · rfl
  · dsimp only
    split <;> rfl

lemma driveRekeyControlPlane_eq : driveRekeyControlPlane S = (do
    let w ← get
    match w.sess.rekey with
    | none => pure ()
    | some rk =>
      if rk.state ≠ .keyExchange then pure ()
      else
        match ← Proc.ofExcept (ClientKeyMethod2.tryParse rk.tls.plaintextIn) with
        | .needMore => pure ()
        | .ready km n =>
          let keyData := deriveOpenvpnKeyData S.prims km.preMaster km.random1 rk.serverRandom1
            km.random2 rk.serverRandom2 (putU64 w.sess.clientSessionId)
            (putU64 w.sess.serverSessionId)
          installSlot (.fresh rk.keyId keyData)
          let reply := serverKeyMethod2 S rk.serverRandom1 rk.serverRandom2
          let (tls, ok) := (rk.tls.drain n).sendPlaintext S.rustls reply
          modifySess fun s => { s with rekey := some { rk with tls } }
          if ok then
            modify fun w => { w with sess := { w.sess with
                                       rekey := some { rk with tls, keyMethodSent := true } },
                                     log := w.log ++ [.replied rk.keyId] }
          else throw (.bail "tls write_all")) := by
  funext w
  simp only [driveRekeyControlPlane, Proc.get_bind]
  rcases hrk : w.sess.rekey with _ | rk
  · rfl
  dsimp only
  by_cases hst : rk.state = .keyExchange
  swap
  · rw [if_pos (by simp [hst]), if_pos hst]
  rw [if_neg (by simp [hst]), if_neg (not_not.mpr hst)]
  rcases hp : ClientKeyMethod2.tryParse rk.tls.plaintextIn with e | ⟨km, n⟩ | _
  · simp only [unwrap, Proc.pure_bind, hp]
    rfl
  -- the bytes that are drained have just been parsed, so `drainTo` does not panic
  · have hdrain := TlsSession.drainTo_of_le (ClientKeyMethod2.tryParse_ready hp).2
    simp only [unwrap, hp, Proc.bind_apply, Proc.ofExcept_apply, Proc.get_apply, hrk,
      Proc.pure_apply, installSlot, Proc.modify_apply, hdrain]
  · simp only [unwrap, Proc.pure_bind, hp]
    rfl

lemma finishRekey_eq : (finishRekey : M Conn Unit) = (do
    let w ← get
    match w.sess.rekey with
    | none => pure ()
    | some rk =>
      if rk.keyMethodSent then
        let before := w.sess.toSlotTable
        let after := (before.promoteSlot rk.keyId).2
        put { w with sess := { w.sess with toSlotTable := after, rekey := none,
                                           lastRekeyAt := w.env.now },
                     log := w.log ++ [.rekeyed rk.keyId before after] }
      else pure ()) := by
  funext w
  simp only [finishRekey, Proc.get_bind]
  rcases w.sess.rekey with _ | rk
  · rfl
  · rcases hsent : rk.keyMethodSent <;> simp [hsent, unwrap]

lemma drainPlaintext_of_le {w : World Conn} {n : ℕ} (h : n ≤ w.sess.tls.plaintextIn.length) :
    drainPlaintext n w = (.ok (), w.setTls (w.sess.tls.drain n)) := by
  simp only [drainPlaintext, Proc.get_bind, TlsSession.drainTo_of_le h]
  rfl

end Unwraps

def handleRekeyControl (ctrl : ControlPacket) : M Conn Unit := do
  let w ← get
  match w.sess.rekey with
  | none => pure ()
  | some rk =>
    let (tls, fed) := rk.tls.feed S.rustls ctrl.payload
    put { w with sess := { w.sess with rekey := some { rk with tls } },
                 log := w.log ++ [.feed (.rekey rk.keyId) ctrl] }
    context "rekey tls feed" fed
    if rk.state = .handshaking ∧ !tls.isHandshaking S.rustls then
      modify fun w => { w with sess := { w.sess with
                                 rekey := some { rk with tls, state := .keyExchange } },
                               log := w.log ++ [.handshaken (.rekey rk.keyId)] }
    driveRekeyControlPlane S
    flushRekeyOutgoing S
    finishRekey

/-! ### The main track -/

def allocateIp : M Conn Ipv4Addr := do
  let w ← get
  let ip := w.tab.nextPoolIp
  if ip > S.poolEnd then throw (.bail "client IP pool exhausted")
  else
    put { w with tab := { w.tab with nextPoolIp := ip + 1 } }
    pure ip

/-- `none` when IPv6 is not configured. -/
def allocateIpV6 : M Conn (Option Ipv6Addr) := do
  let w ← get
  match w.tab.nextPoolIpV6, S.poolEndV6 with
  | none, _ => pure none
  | some _, none => throw (.panic "pool_end_v6 set together with next_pool_ip_v6")
  | some ip, some poolEnd =>
    if ip > poolEnd then throw (.bail "client IPv6 pool exhausted")
    else
      put { w with tab := { w.tab with nextPoolIpV6 := some (ip + 1) } }
      pure (some ip)

/-- The tunnel address for a `PUSH_REQUEST`: the client's static one, or one of the pool. -/
def chooseIp (cc : Option ClientConfig) : M Conn Ipv4Addr := do
  let w ← get
  match cc.bind ClientConfig.assignIp with
  | some (.v4 v4) =>
    if (w.tab.routes v4).isSome then
      let ip := String.ofList (Ipv4Addr.show v4)
      let cn := match w.sess.clientCn with
        | some cn => "Some(" ++ (String.ofList cn).quote ++ ")"
        | none => "None"
      throw (.bail s!"static IP {ip} for cn={cn} already in use")
    else pure v4
  | some (.v6 _) => throw (.bail "per-client IPv6 not supported")
  | none => allocateIp S

/-- Choose the IPv4 address, note it in the session and route it. -/
def assignIp (addr : SocketAddr) (cc : Option ClientConfig) : M Conn Ipv4Addr := do
  let ip ← chooseIp S cc
  modify fun w => { w with sess := { w.sess with assignedIp := some (.v4 ip) },
                           tab := { w.tab with
                             routes := Function.update w.tab.routes ip (some addr) },
                           log := w.log ++ [.assigned ip] }
  pure ip

/-- The same for IPv6, if there is a pool. -/
def assignIpV6 (addr : SocketAddr) : M Conn (Option Ipv6Addr) := do
  match ← allocateIpV6 S with
  | some v6 =>
    modify fun w => { w with sess := { w.sess with assignedIpV6 := some v6 },
                             tab := { w.tab with
                               routesV6 := Function.update w.tab.routesV6 v6 (some addr) },
                             log := w.log ++ [.assignedV6 v6] }
    pure (some v6)
  | none => pure none

def handlePushRequest (addr : SocketAddr) : M Conn Unit := do
  let w ← get
  let cc := S.cfg.clientConfig w.sess.clientCn
  let ip ← assignIp S addr cc
  let ip6 ← assignIpV6 S addr
  let extraRoutes := (cc.map ClientConfig.pushRoutes).getD []
  sendPlaintext S (buildPushReply S.cfg ip ip6 w.sess.peerId extraRoutes)
  modifySess fun s => { s with state := .established }

def installPrfSlot (keyId : UInt8) : M Conn Unit := do
  let w ← get
  let slot ← Proc.ofExcept (w.sess.prfSlot S.prims keyId)
  put { w with sess := { w.sess with toSlotTable := w.sess.place slot },
               log := w.log ++ [.installed slot] }

def handleKeyMethod2 (km : ClientKeyMethod2) : M Conn Unit := do
  modifySess fun s => { s with
    clientPreMaster := some km.preMaster
    clientRandom1 := some km.random1
    clientRandom2 := some km.random2
    clientOptions := some km.options
    clientPeerInfo := some km.peerInfo }
  installPrfSlot S 0
  let w ← get
  sendPlaintext S (serverKeyMethod2 S w.sess.serverRandom1 w.sess.serverRandom2)
  modifySess fun s => { s with state := .pushPending }

/-- One round of the loop of `drive_control_plane`; `false` means it returns. -/
def driveRound (addr : SocketAddr) : M Conn Bool := do
  let w ← get
  match w.sess.state with
  | .keyExchange =>
    match ← Proc.ofExcept (ClientKeyMethod2.tryParse w.sess.tls.plaintextIn) with
    | .needMore => pure false
    | .ready km n =>
      drainPlaintext n
      handleKeyMethod2 S km
      pure true
  | .pushPending =>
    match tryPopAscii w.sess.tls.plaintextIn with
    | .needMore => pure false
    | .ready msg n =>
      drainPlaintext n
      if msg = "PUSH_REQUEST".toList then handlePushRequest S addr
      pure true
  | .established =>
    match tryPopAscii w.sess.tls.plaintextIn with
    | .needMore => pure false
    | .ready msg n =>
      drainPlaintext n
      if msg = "EXIT".toList ∨ "CC_EXIT".toList <+: msg then
        modifySess fun s => { s with state := .closed }
        pure false
      else pure true
  | _ => pure false

def driveLoop (addr : SocketAddr) : ℕ → M Conn Unit
  | 0 => pure ()
  | fuel + 1 => do
    if ← driveRound S addr then driveLoop addr fuel else pure ()

/-- Every round that goes on consumes plaintext, so the loop ends within these rounds. -/
def driveControlPlane (addr : SocketAddr) : M Conn Unit := do
  let w ← get
  driveLoop S addr (w.sess.tls.plaintextIn.length + 1)

def handleMainControl (addr : SocketAddr) (ctrl : ControlPacket) : M Conn Unit := do
  let w ← get
  let (tls, fed) := w.sess.tls.feed S.rustls ctrl.payload
  put { w with sess := { w.sess with tls }, log := w.log ++ [.feed .main ctrl] }
  context "tls feed" fed
  if w.sess.state = .handshaking ∧ !tls.isHandshaking S.rustls then
    modify fun w => { w with sess := w.sess.finalizeKeys S.rustls,
                             log := w.log ++ [.handshaken .main] }
  driveControlPlane S addr
  flushOutgoing S

/-! ### Dispatch -/

def checkReplay : Option UInt32 → M Conn Unit
  | none => pure ()
  | some pid => do
    let w ← get
    let (ok, replay) := w.sess.tlsAuthReplay.checkAndSet pid
    put { w with sess := { w.sess with tlsAuthReplay := replay } }
    if ok then pure () else throw (.bail s!"tls-auth replay rejected pid={pid}")

def processAcks (acks : List UInt32) : M Conn Unit :=
  if acks.isEmpty then pure ()
  else modify fun w => { w with sess := w.sess.processAcks acks, log := w.log ++ [.acked acks] }

def noteReceived : Option UInt32 → M Conn Unit
  | some pid => modify fun w => { w with sess := w.sess.noteReceived pid w.env.now }
  | none => pure ()

/-- What precedes the dispatch on the opcode. -/
def acceptControl (ctrl : ControlPacket) (replayPid : Option UInt32) : M Conn Unit := do
  modify fun w => { w with sess := { w.sess with lastSeen := w.env.now } }
  checkReplay replayPid
  processAcks ctrl.acks
  noteReceived ctrl.packetId

def handleSoftReset (ctrl : ControlPacket) : M Conn Unit := do
  let w ← get
  if w.sess.rekey.isSome then pure ()
  else if w.sess.state ≠ .established then pure ()
  else
    match w.env.conn with
    | none => throw (.bail "new ServerConnection")
    | some conn =>
      let s := w.sess.startRekey ctrl.keyId (.new conn) w.env.random1 w.env.random2
      let (reply, s) := s.makeSoftResetReply ctrl.keyId (ctrl.packetId.getD 0)
      put { w with sess := s, log := w.log ++ [.reset reply] }
      sendAndTrack S reply

/-- A `P_CONTROL_V1` goes to the rekey track if it carries its key id, else to the main one. -/
def isRekey (sess : Session Conn) (ctrl : ControlPacket) : Bool :=
  sess.rekey.any fun r => r.keyId = ctrl.keyId

def dispatch (addr : SocketAddr) (ctrl : ControlPacket) : M Conn Unit := do
  match ctrl.op with
  | .controlV1 =>
    let w ← get
    if isRekey w.sess ctrl then handleRekeyControl S ctrl else handleMainControl S addr ctrl
  | .controlSoftResetV1 => handleSoftReset S ctrl
  | _ => pure ()

/-- `handle_control_packet` from the point where it holds the lock of an existing session. -/
def handleLocked (addr : SocketAddr) (ctrl : ControlPacket) (replayPid : Option UInt32) :
    M Conn Unit := do
  acceptControl ctrl replayPid
  dispatch S addr ctrl

/-- The session a `HARD_RESET` from an unknown peer opens. -/
def newSession (ctrl : ControlPacket) (replayPid : Option UInt32) (peerId : UInt32)
    (transport : Transport) (conn : Conn) (env : Env Conn) : Session Conn :=
  { Session.new env.serverSid (.new conn) peerId transport env.random1 env.random2 env.now with
    clientSessionId := ctrl.sessionId
    state := .handshaking
    tlsAuthReplay := match replayPid with
      | some pid => (ReplayWindow.new.checkAndSet pid).2
      | none => .new }

def greet (ctrl : ControlPacket) : M Conn Unit := do
  let w ← get
  let (reply, s) := w.sess.makeHardResetReply (ctrl.packetId.getD 0)
  put { w with sess := s, log := w.log ++ [.reset reply] }
  sendAndTrack S reply

end Javs
