import Mathlib.Data.Fintype.Basic
import Mathlib.Logic.Function.Basic
import Javs.Protocol
import Javs.Replay
import Javs.Prf
import Javs.Tls
import Javs.Config

/-!
Per-client connection state and the operations on it that take no server.
-/

namespace Javs

open Bytes

def maxTlsPayloadPerControl : ℕ := 1100

/-- Milliseconds. -/
def controlBaseRto : ℕ := 2000
def controlMaxAttempts : ℕ := 6

structure Unacked where
  packetId : UInt32
  encoded : Bytes
  sentAt : ℕ
  attempts : ℕ
  deriving DecidableEq, Repr

structure KeySlot where
  keyId : UInt8
  cipher : DataCipher
  /-- Packet id of the next outbound data packet. -/
  dataPidOut : UInt32
  replay : ReplayWindow
  deriving DecidableEq, Repr

/-- A freshly derived slot: the first packet id is 1 and nothing has been received. -/
def KeySlot.fresh (keyId : UInt8) (keyData : Bytes) : KeySlot :=
  ⟨keyId, DataCipher.fromKeymatServer keyData, 1, .new⟩

/-! ### The two key slots -/

/-- Up to two key generations, and the index of the one used for sending. -/
structure SlotTable where
  slots : Fin 2 → Option KeySlot := fun _ => none
  activeSlotIdx : Fin 2 := 0

namespace SlotTable

abbrev empty : SlotTable := {}

variable (t : SlotTable)

abbrev otherIdx : Fin 2 := 1 - t.activeSlotIdx

def activeSlot : Option KeySlot := t.slots t.activeSlotIdx

/-- The key id outbound packets of the main control track are labelled with. -/
def activeKeyId : UInt8 := (t.activeSlot.map KeySlot.keyId).getD 0

def position (keyId : UInt8) : Option (Fin 2) :=
  if (t.slots 0).map KeySlot.keyId = some keyId then some 0
  else if (t.slots 1).map KeySlot.keyId = some keyId then some 1
  else none

def slotByKeyId (keyId : UInt8) : Option KeySlot := (t.position keyId).bind t.slots

def setSlot (i : Fin 2) (s : KeySlot) : SlotTable :=
  { t with slots := Function.update t.slots i (some s) }

/-- Put a slot into the position that is not active, evicting what was there. -/
def installSlot (s : KeySlot) : SlotTable := t.setSlot (1 - t.activeSlotIdx) s

/-- Make the first slot with the given key id the active one; `false` if there is none. -/
def promoteSlot (keyId : UInt8) : Bool × SlotTable :=
  match t.position keyId with
  | some i => (true, { t with activeSlotIdx := i })
  | none => (false, t)

/-- Where a derived slot goes: position 0 if nothing is active yet, else the free one. -/
def place (s : KeySlot) : SlotTable :=
  match t.activeSlot with
  | none => ⟨Function.update t.slots 0 (some s), 0⟩
  | some _ => t.installSlot s

end SlotTable

/-! ### Sessions -/

inductive RekeyState
  | handshaking
  | keyExchange
  deriving DecidableEq, Repr

structure RekeyTrack (Conn : Type) where
  keyId : UInt8
  tls : TlsSession Conn
  state : RekeyState
  serverRandom1 : Bytes
  serverRandom2 : Bytes
  /-- The key-method-2 reply has been queued on `tls`. -/
  keyMethodSent : Bool

inductive State
  | waitingHardReset
  | handshaking
  | keyExchange
  | pushPending
  | established
  | closed
  deriving DecidableEq, Repr

/-- How outbound bytes reach the peer: the shared UDP socket, or the writer of one accepted
TCP stream. -/
inductive Transport
  | udp (addr : SocketAddr)
  | tcp (stream : ℕ)
  deriving DecidableEq, Repr

structure Session (Conn : Type) extends SlotTable where
  serverSessionId : SessionId
  clientSessionId : SessionId := 0
  state : State := .waitingHardReset
  nextPacketId : UInt32 := 0
  pendingAcks : List UInt32 := []
  /-- A set, kept without duplicates. -/
  receivedPids : List UInt32 := []
  tls : TlsSession Conn
  assignedIp : Option IpAddr := none
  assignedIpV6 : Option Ipv6Addr := none
  peerId : UInt32
  transport : Transport
  tlsAuthPidOut : UInt32 := 1
  tlsAuthReplay : ReplayWindow := .new
  clientRandom1 : Option Bytes := none
  clientRandom2 : Option Bytes := none
  clientPreMaster : Option Bytes := none
  serverRandom1 : Bytes
  serverRandom2 : Bytes
  clientOptions : Option Text := none
  clientPeerInfo : Option Text := none
  clientCn : Option Text := none
  unacked : List Unacked := []
  rekey : Option (RekeyTrack Conn) := none
  lastRekeyAt : ℕ
  lastSeen : ℕ

namespace Session

variable {Conn : Type}

def new (serverSessionId : SessionId) (tls : TlsSession Conn) (peerId : UInt32)
    (transport : Transport) (r1 r2 : Bytes) (now : ℕ) : Session Conn :=
  { serverSessionId, tls, peerId, transport, serverRandom1 := r1, serverRandom2 := r2,
    lastRekeyAt := now, lastSeen := now }

variable (s : Session Conn)

def startRekey (newKeyId : UInt8) (tls : TlsSession Conn) (r1 r2 : Bytes) : Session Conn :=
  { s with rekey := some ⟨newKeyId, tls, .handshaking, r1, r2, false⟩ }

def recordSent (packetId : UInt32) (encoded : Bytes) (now : ℕ) : Session Conn :=
  { s with unacked := s.unacked ++ [⟨packetId, encoded, now, 1⟩] }

def processAcks (acks : List UInt32) : Session Conn :=
  if acks.isEmpty then s
  else { s with unacked := s.unacked.filter fun u => !acks.contains u.packetId }

/-- One entry of the retransmit scan: the entry after it, and the bytes to resend if due. -/
def staleEntry (now baseRto : ℕ) (u : Unacked) : Unacked × Option Bytes :=
  let shift := min (u.attempts - 1) 5
  let backoff := baseRto * 2 ^ shift
  if now - u.sentAt ≥ backoff then
    ({ u with sentAt := now, attempts := min (u.attempts + 1) (2 ^ 32 - 1) }, some u.encoded)
  else (u, none)

def staleUnacked (now baseRto : ℕ) : Session Conn × List Bytes :=
  let scanned := (s.unacked.filter fun u => u.attempts < controlMaxAttempts).map
    (staleEntry now baseRto)
  ({ s with unacked := scanned.map Prod.fst }, scanned.filterMap Prod.snd)

def allocPacketId : UInt32 × Session Conn :=
  (s.nextPacketId, { s with nextPacketId := s.nextPacketId + 1 })

def makeHardResetReply (ackPid : UInt32) : ControlPacket × Session Conn :=
  let (pid, s) := s.allocPacketId
  (⟨.controlHardResetServerV2, 0, s.serverSessionId, [ackPid], some s.clientSessionId, some pid,
    []⟩, s)

def makeSoftResetReply (newKeyId : UInt8) (ackPid : UInt32) : ControlPacket × Session Conn :=
  let (pid, s) := s.allocPacketId
  (⟨.controlSoftResetV1, newKeyId, s.serverSessionId, [ackPid], some s.clientSessionId, some pid,
    []⟩, s)

def makeSoftResetInit (newKeyId : UInt8) : ControlPacket × Session Conn :=
  let (pid, s) := s.allocPacketId
  (⟨.controlSoftResetV1, newKeyId, s.serverSessionId, [], none, some pid, []⟩, s)

def makeAck (keyId : UInt8) (pids : List UInt32) : ControlPacket :=
  ⟨.ackV1, keyId, s.serverSessionId, pids, some s.clientSessionId, none, []⟩

def makeControl (keyId : UInt8) (tlsPayload : Bytes) : ControlPacket × Session Conn :=
  let (pid, s) := s.allocPacketId
  let acks := s.pendingAcks
  let remote := if acks.isEmpty then none else some s.clientSessionId
  (⟨.controlV1, keyId, s.serverSessionId, acks, remote, some pid, tlsPayload⟩,
    { s with pendingAcks := [] })

/-- Skips 0 when it wraps around. -/
def nextTlsAuthPid : UInt32 × Session Conn :=
  (s.tlsAuthPidOut,
    { s with tlsAuthPidOut := if s.tlsAuthPidOut = 0xFFFFFFFF then 1 else s.tlsAuthPidOut + 1 })

def noteReceived (pid : UInt32) (now : ℕ) : Session Conn :=
  if s.receivedPids.contains pid then { s with lastSeen := now }
  else
    { s with receivedPids := pid :: s.receivedPids, pendingAcks := s.pendingAcks ++ [pid],
             lastSeen := now }

def finalizeKeys (T : Rustls Conn) : Session Conn :=
  match T.peerCommonName s.tls.conn with
  | some cn => { s with clientCn := cn, state := .keyExchange }
  | none => { s with state := .keyExchange }

/-- The slot `install_prf_slot` derives from the key-method-2 inputs. -/
def prfSlot (p : Primitives) (keyId : UInt8) : Res KeySlot :=
  match s.clientPreMaster with
  | none => .error (.bail "install_prf_slot: missing client pre_master")
  | some preMaster =>
    match s.clientRandom1 with
    | none => .error (.bail "install_prf_slot: missing client random1")
    | some r1 =>
      match s.clientRandom2 with
      | none => .error (.bail "install_prf_slot: missing client random2")
      | some r2 => .ok (.fresh keyId (deriveOpenvpnKeyData p preMaster r1 s.serverRandom1 r2
          s.serverRandom2 (putU64 s.clientSessionId) (putU64 s.serverSessionId)))

/-- The 8-byte header of an outbound data packet. -/
def dataHeader (peerId : UInt32) (keyId : UInt8) (pid : UInt32) : Bytes :=
  [(OpCode.dataV2.toU8 <<< 3) ||| (keyId &&& 0x07), (peerId >>> 16).toUInt8,
    (peerId >>> 8).toUInt8, peerId.toUInt8] ++ putU32 pid

end Session

end Javs
