import Javs.Control

/-!
The data plane and the periodic tasks, on one locked session.
-/

namespace Javs

open Lib Bytes M

variable {Conn : Type} (S : VpnServer Conn)

/-! ### Data plane -/

/-- The part of `decrypt_and_forward` under the session's lock. The replay window is consulted
only after the packet has authenticated. -/
def decryptLocked (pkt : Bytes) : M Conn Bytes := do
  let dp ← Proc.ofExcept (DataPacketV2.parse pkt)
  let aad ← Proc.ofExcept (slice pkt 0 8)
  let w ← get
  match w.sess.position dp.keyId with
  | none => throw (.bail s!"no key slot for key_id={dp.keyId}")
  | some i =>
    match w.sess.slots i with
    | none => throw (.panic "position of an empty slot")
    | some slot =>
      let plaintext ← Proc.ofExcept (slot.cipher.open' S.prims dp.packetId aad dp.ciphertext)
      let (ok, replay) := slot.replay.checkAndSet dp.packetId
      put { w with sess := { w.sess with toSlotTable := w.sess.setSlot i { slot with replay } } }
      if !ok then throw (.bail s!"replay rejected: key_id={dp.keyId} pid={dp.packetId}")
      else
        modify fun w => { w with sess := { w.sess with lastSeen := w.env.now },
                                 log := w.log ++ [.opened slot.cipher dp.packetId pkt] }
        pure plaintext

/-- The part behind `drop(sess)`: the plaintext goes to the TUN writer. -/
def handOver (pkt plaintext : Bytes) : M Conn Unit := do
  let w ← get
  if plaintext = pingPayload then pure ()
  else if w.env.tunOpen then emit (.tun pkt plaintext)
  else throw (.bail "tun writer channel closed")

/-- Both parts in one go. In `fine` they are steps of their own. -/
def decryptAndForward (pkt : Bytes) : M Conn Unit := do
  handOver pkt (← decryptLocked S pkt)

/-- Encrypt `plaintext` as the next outbound data packet, bumping the packet id. -/
def buildDataPacket (plaintext : Bytes) : M Conn Bytes := do
  let w ← get
  match w.sess.activeSlot with
  | none => throw (.bail "no active key slot")
  | some slot =>
    let pid := slot.dataPidOut
    let table := w.sess.setSlot w.sess.activeSlotIdx { slot with dataPidOut := pid + 1 }
    put { w with sess := { w.sess with toSlotTable := table },
                 log := w.log ++ [.sealed slot.cipher pid] }
    let header := Session.dataHeader w.sess.peerId slot.keyId pid
    let ct ← Proc.ofExcept (slot.cipher.seal' S.prims pid header plaintext)
    pure (header ++ ct)

/-- `forward_tun_to_client` from the point where it holds the session's lock. -/
def forwardLocked (ipPkt : Bytes) : M Conn Unit := do
  let w ← get
  if w.sess.activeSlot.isNone then pure ()
  else
    let bytes ← buildDataPacket S ipPkt
    transportSend bytes

/-! ### Periodic tasks -/

/-- The keepalive task, for one session. -/
def pingTick : M Conn Unit := do
  let w ← get
  if w.sess.state ≠ .established ∨ w.sess.activeSlot.isNone then pure ()
  else
    let bytes ← buildDataPacket S pingPayload
    -- the code has released the lock here
    transportSend bytes

def rekeyTick : M Conn Unit := do
  let w ← get
  if w.sess.state ≠ .established ∨ w.sess.rekey.isSome then pure ()
  else if w.env.now - w.sess.lastRekeyAt < S.cfg.renegSec.toNat * 1000 then pure ()
  else
    match w.env.conn with
    | none => pure ()
    | some conn =>
      let newKeyId := (w.sess.activeKeyId + 1) &&& 0x07
      let s := w.sess.startRekey newKeyId (.new conn) w.env.random1 w.env.random2
      let (pkt, s) := { s with lastRekeyAt := w.env.now }.makeSoftResetInit newKeyId
      put { w with sess := s, log := w.log ++ [.reset pkt] }
      sendAndTrack S pkt

/-- Wrap each retransmit afresh, leaving out those that cannot be wrapped. -/
def rewrap : List Bytes → M Conn (List Bytes)
  | [] => pure []
  | inner :: rest => do
    let wire ← recover (do return [← wrapForWire S inner]) []
    return wire ++ (← rewrap rest)

/-- The retransmission task, for one session. -/
def retransmitTick : M Conn Unit := do
  let w ← get
  let (s, stale) := w.sess.staleUnacked w.env.now controlBaseRto
  put { w with sess := s }
  let wires ← rewrap S stale
  -- the code has released the lock here
  forM wires fun bytes => attempt (transportSend bytes)

/-- What shutdown does for one session: ask the client to reconnect. -/
def shutdownClient : M Conn Unit := do
  let w ← get
  if w.sess.state ≠ .established then pure ()
  else
    sendPlaintext S (ascii "RESTART,1" ++ [0])
    flushOutgoing S

end Javs
