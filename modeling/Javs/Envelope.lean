import Javs.Crypto

/-!
The control-channel envelopes `tls-auth` and `tls-crypt`.
-/

namespace Javs

open Bytes

def staticKeyLen : ℕ := 256

/-! ### tls-auth -/

structure TlsAuthKey where
  outKey : Bytes
  inKey : Bytes
  deriving DecidableEq, Repr

namespace TlsAuthKey

def hmacLen : ℕ := 32
def slotLen : ℕ := 64
def headerLen : ℕ := 9
def replayHeaderLen : ℕ := 8

def fromStaticKeyServer (km : Bytes) (direction : UInt8) : Res TlsAuthKey := do
  let (outOff, inOff) ← match direction.toNat with
    | 0 => pure (slotLen, slotLen)
    | 1 => pure (slotLen * 3, slotLen)
    | _ => throw (.bail s!"invalid tls-auth key-direction {direction}; expected 0 or 1")
  return ⟨(km.drop outOff).take slotLen, (km.drop inOff).take slotLen⟩

def composeHmacInput (op : UInt8) (sessionId : Bytes) (replayPid timestamp : UInt32)
    (body : Bytes) : Bytes :=
  putU32 replayPid ++ putU32 timestamp ++ [op] ++ sessionId ++ body

variable (p : Primitives)

def computeHmac (key : Bytes) (op : UInt8) (sessionId : Bytes) (replayPid timestamp : UInt32)
    (body : Bytes) : Bytes :=
  p.hmacSha256 key (composeHmacInput op sessionId replayPid timestamp body)

/-- `op | session_id | HMAC | replay_pid | net_time | body`. -/
def wrap (k : TlsAuthKey) (inner : Bytes) (replayPid timestamp : UInt32) : Res Bytes := do
  if inner.length < headerLen then
    throw (.bail s!"inner control packet too short ({inner.length} < {headerLen})")
  let (op, _) ← getU8 inner
  let sessionId ← slice inner 1 headerLen
  let body ← sliceFrom inner headerLen
  let hmac := computeHmac p k.outKey op sessionId replayPid timestamp body
  return [op] ++ sessionId ++ hmac ++ putU32 replayPid ++ putU32 timestamp ++ body

def unwrap (k : TlsAuthKey) (pkt : Bytes) : Res (Bytes × UInt32) := do
  let minLen := headerLen + hmacLen + replayHeaderLen
  if pkt.length < minLen then
    throw (.bail s!"packet too short for tls-auth ({pkt.length} < {minLen})")
  let (op, _) ← getU8 pkt
  let sessionId ← slice pkt 1 headerLen
  let hmacRecv ← slice pkt headerLen (headerLen + hmacLen)
  let afterHmac := headerLen + hmacLen
  let replayPid := UInt32.ofNat (ofBe (← toArray 4 (← slice pkt afterHmac (afterHmac + 4))))
  let timestamp :=
    UInt32.ofNat (ofBe (← toArray 4 (← slice pkt (afterHmac + 4) (afterHmac + 8))))
  let body ← sliceFrom pkt (afterHmac + replayHeaderLen)
  if computeHmac p k.inKey op sessionId replayPid timestamp body ≠ hmacRecv then
    throw (.bail "tls-auth HMAC mismatch")
  return ([op] ++ sessionId ++ body, replayPid)

end TlsAuthKey

/-! ### tls-crypt -/

structure TlsCryptKey where
  encCipherKey : Bytes
  encHmacKey : Bytes
  decCipherKey : Bytes
  decHmacKey : Bytes
  deriving DecidableEq, Repr

namespace TlsCryptKey

def tagLen : ℕ := 32
def headerLen : ℕ := 17

def fromStaticKeyServer (km : Bytes) : TlsCryptKey where
  encCipherKey := km.take 32
  encHmacKey := (km.drop 64).take 32
  decCipherKey := (km.drop 128).take 32
  decHmacKey := (km.drop 192).take 32

variable (p : Primitives)

/-- `op | session_id | packet_id | net_time | tag | AES-CTR(body)`, the counter block taken
from the tag over the plaintext. -/
def wrap (k : TlsCryptKey) (inner : Bytes) (packetId timestamp : UInt32) : Res Bytes := do
  if inner.length < 9 then
    throw (.bail s!"tls-crypt: inner control packet too short ({inner.length})")
  let (op, _) ← getU8 inner
  let sessionId ← slice inner 1 9
  let body ← sliceFrom inner 9
  let header := [op] ++ sessionId ++ putU32 packetId ++ putU32 timestamp
  let tag := p.hmacSha256 k.encHmacKey (header ++ body)
  return header ++ tag ++ p.aesCtr k.encCipherKey (tag.take 16) body

def unwrap (k : TlsCryptKey) (pkt : Bytes) : Res (Bytes × UInt32) := do
  let minLen := headerLen + tagLen
  if pkt.length < minLen then
    throw (.bail s!"tls-crypt: packet too short ({pkt.length} < {minLen})")
  let header ← slice pkt 0 headerLen
  let (op, _) ← getU8 header
  let sessionId ← slice header 1 9
  let packetId := UInt32.ofNat (ofBe (← toArray 4 (← slice header 9 13)))
  let tag ← slice pkt headerLen (headerLen + tagLen)
  let ciphertext ← sliceFrom pkt (headerLen + tagLen)
  let iv ← slice tag 0 16
  let plaintext := p.aesCtr k.decCipherKey iv ciphertext
  if p.hmacSha256 k.decHmacKey (header ++ plaintext) ≠ tag then
    throw (.bail "tls-crypt HMAC mismatch")
  return ([op] ++ sessionId ++ plaintext, packetId)

end TlsCryptKey

end Javs
