import Javs.Bytes

/-!
Wire format of the OpenVPN packets: the control packet and the data packet header.
-/

namespace Javs

open Bytes

inductive OpCode
  | controlHardResetClientV1
  | controlHardResetServerV1
  | controlSoftResetV1
  | controlV1
  | ackV1
  | dataV1
  | controlHardResetClientV2
  | controlHardResetServerV2
  | dataV2
  | controlHardResetClientV3
  | controlWkcV1
  deriving DecidableEq, Repr

namespace OpCode

def toU8 : OpCode → UInt8
  | controlHardResetClientV1 => 1
  | controlHardResetServerV1 => 2
  | controlSoftResetV1 => 3
  | controlV1 => 4
  | ackV1 => 5
  | dataV1 => 6
  | controlHardResetClientV2 => 7
  | controlHardResetServerV2 => 8
  | dataV2 => 9
  | controlHardResetClientV3 => 10
  | controlWkcV1 => 11

def fromU8 (v : UInt8) : Res OpCode :=
  match v.toNat with
  | 1 => .ok controlHardResetClientV1
  | 2 => .ok controlHardResetServerV1
  | 3 => .ok controlSoftResetV1
  | 4 => .ok controlV1
  | 5 => .ok ackV1
  | 6 => .ok dataV1
  | 7 => .ok controlHardResetClientV2
  | 8 => .ok controlHardResetServerV2
  | 9 => .ok dataV2
  | 10 => .ok controlHardResetClientV3
  | 11 => .ok controlWkcV1
  | _ => .error (.bail s!"unknown opcode {v}")

def isData (op : OpCode) : Bool := op = dataV1 ∨ op = dataV2
def isControl (op : OpCode) : Bool := !op.isData

def isHardResetClient (op : OpCode) : Bool :=
  op = controlHardResetClientV2 ∨ op = controlHardResetClientV1 ∨ op = controlHardResetClientV3

end OpCode

abbrev SessionId := UInt64

structure ControlPacket where
  op : OpCode
  keyId : UInt8
  sessionId : SessionId
  acks : List UInt32
  remoteSessionId : Option SessionId
  /-- `none` only for `P_ACK_V1`. -/
  packetId : Option UInt32
  payload : Bytes
  deriving DecidableEq, Repr

namespace ControlPacket

def readAcks : ℕ → Bytes → Res (List UInt32 × Bytes)
  | 0, b => .ok ([], b)
  | n + 1, b => do
    let (a, b) ← getU32 b
    let (as, b) ← readAcks n b
    return (a :: as, b)

def parse (buf : Bytes) : Res ControlPacket := do
  if buf.isEmpty then throw (.bail "empty packet")
  let (first, b) ← getU8 buf
  let op ← OpCode.fromU8 (first >>> 3)
  let keyId := first &&& 0x07
  if !op.isControl then
    let name := if op = .dataV1 then "DataV1" else "DataV2"
    throw (.bail s!"not a control opcode: {name}")
  if b.length < 8 then throw (.bail "missing session id")
  let (sessionId, b) ← getU64 b
  if b.length < 1 then throw (.bail "missing ack count")
  let (ackCount, b) ← getU8 b
  if b.length < ackCount.toNat * 4 then throw (.bail "truncated ack array")
  let (acks, b) ← readAcks ackCount.toNat b
  let (remoteSessionId, b) ←
    if ackCount > 0 then do
      if b.length < 8 then throw (.bail "missing remote session id")
      let (sid, b) ← getU64 b
      pure (some sid, b)
    else pure (none, b)
  let (packetId, b) ←
    if op ≠ .ackV1 then do
      if b.length < 4 then throw (.bail "missing packet id")
      let (pid, b) ← getU32 b
      pure (some pid, b)
    else pure (none, b)
  return ⟨op, keyId, sessionId, acks, remoteSessionId, packetId, b⟩

def encode (p : ControlPacket) : Bytes :=
  [(p.op.toU8 <<< 3) ||| (p.keyId &&& 0x07)] ++ putU64 p.sessionId ++
    [UInt8.ofNat p.acks.length] ++ p.acks.flatMap putU32 ++
    (if p.acks.isEmpty then [] else putU64 (p.remoteSessionId.getD 0)) ++
    (match p.packetId with
      | some pid => putU32 pid
      | none => []) ++
    p.payload

end ControlPacket

def pingPayload : Bytes :=
  [0x2a, 0x18, 0x7b, 0xf3, 0x64, 0x1e, 0xb4, 0xcb, 0x07, 0xed, 0x2d, 0x0a, 0x98, 0x1f, 0xc7, 0x48]

structure DataPacketV2 where
  keyId : UInt8
  peerId : UInt32
  packetId : UInt32
  ciphertext : Bytes
  deriving DecidableEq, Repr

namespace DataPacketV2

def parse (buf : Bytes) : Res DataPacketV2 := do
  if buf.length < 8 then throw (.bail "data v2 too short")
  let (first, b) ← getU8 buf
  let op := first >>> 3
  if op ≠ OpCode.dataV2.toU8 then throw (.bail s!"not P_DATA_V2 (op={op})")
  let keyId := first &&& 0x07
  let (peer, b) ← advance 3 b
  let (packetId, b) ← getU32 b
  return ⟨keyId, UInt32.ofNat (ofBe peer), packetId, b⟩

end DataPacketV2

end Javs
