import Javs.Lib.Proc
import Javs.Envelope
import Javs.Session

/-!
What a handler that holds a session's lock can read and write.

A handler runs on a *world*: the locked session, the shared address tables, the outcomes
the environment has in store for it (time, randomness, a fresh TLS connection, which
transport sends succeed), and a log of the calls it has made. The log is not part of the
server; it records, in order, what the properties of a run speak about.
-/

namespace Javs

open Lib Bytes

/-- The part of the server that no handler changes, with the libraries it is built on. -/
structure VpnServer (Conn : Type) where
  cfg : ServerConfig
  poolEnd : Ipv4Addr
  poolEndV6 : Option Ipv6Addr
  tlsCrypt : Option TlsCryptKey := none
  tlsAuth : Option TlsAuthKey := none
  prims : Primitives
  rustls : Rustls Conn

@[ext] structure Tables where
  routes : Ipv4Addr → Option SocketAddr := fun _ => none
  routesV6 : Ipv6Addr → Option SocketAddr := fun _ => none
  nextPoolIp : Ipv4Addr
  nextPoolIpV6 : Option Ipv6Addr

structure Env (Conn : Type) where
  now : ℕ
  unixTime : UInt32
  /-- The result of `ServerConnection::new`. -/
  conn : Option Conn
  random1 : Bytes
  random2 : Bytes
  serverSid : SessionId
  /-- Outcomes of the transport sends to come; once used up, sends succeed. -/
  sends : List Bool := []
  /-- The TUN writer still takes packets. -/
  tunOpen : Bool := true

/-- A TLS context of the session: that of the initial handshake, or that of a rekey. -/
inductive Ctx
  | main
  | rekey (keyId : UInt8)
  deriving DecidableEq, Repr

inductive Effect
  /-- A control packet's payload was fed into a context. -/
  | feed (ctx : Ctx) (pkt : ControlPacket)
  /-- The handshake of a context was found complete. -/
  | handshaken (ctx : Ctx)
  /-- Outbound bytes were taken out of a context. -/
  | drained (ctx : Ctx) (out : Bytes)
  /-- A control packet was built around bytes of a context. -/
  | frag (ctx : Ctx) (pkt : ControlPacket)
  /-- A bare acknowledgement was built. -/
  | ack (pkt : ControlPacket)
  /-- A reset packet was built. -/
  | reset (pkt : ControlPacket)
  /-- A control packet was handed to the transport. -/
  | sent (pkt : ControlPacket)
  /-- Bytes were put on the wire. -/
  | wire (bytes : Bytes)
  /-- The acknowledgements of an inbound control packet were processed. -/
  | acked (acks : List UInt32)
  /-- A derived key slot was put into the slot table. -/
  | installed (slot : KeySlot)
  /-- The session was given an IPv4 tunnel address. -/
  | assigned (ip : Ipv4Addr)
  /-- The session was given an IPv6 tunnel address. -/
  | assignedV6 (ip : Ipv6Addr)
  /-- The key-method-2 reply of a rekey was queued on its context. -/
  | replied (keyId : UInt8)
  /-- A rekey completed, taking the slot table from `before` to `after`. -/
  | rekeyed (keyId : UInt8) (before after : SlotTable)
  /-- A data packet was sealed. -/
  | sealed (cipher : DataCipher) (packetId : UInt32)
  /-- A data packet authenticated and passed the replay window. -/
  | opened (cipher : DataCipher) (packetId : UInt32) (wire : Bytes)
  /-- The plaintext of a data packet went to the TUN. -/
  | tun (wire plaintext : Bytes)

structure World (Conn : Type) where
  sess : Session Conn
  tab : Tables
  env : Env Conn
  log : List Effect := []

abbrev M (Conn : Type) := Proc (World Conn) Err

variable {Conn : Type}

def World.setTls (w : World Conn) (tls : TlsSession Conn) : World Conn :=
  { w with sess := { w.sess with tls } }

namespace M

def put (w : World Conn) : M Conn Unit := set w

def emit (e : Effect) : M Conn Unit := modify fun w => { w with log := w.log ++ [e] }

def modifySess (f : Session Conn → Session Conn) : M Conn Unit :=
  modify fun w => { w with sess := f w.sess }

/-- `anyhow`'s `context`: the outer message is the one reported. -/
def context {α : Type} (msg : String) : Res α → M Conn α
  | .error (.bail _) => throw (.bail msg)
  | r => Proc.ofExcept r

def unwrap {α : Type} : Option α → M Conn α
  | some a => pure a
  | none => throw (.panic "called Option::unwrap() on a None value")

/-- Run `m`; when it reports an error, carry on with `a` where it stopped. A panic goes on. -/
def recover {α : Type} (m : M Conn α) (a : α) : M Conn α := tryCatch m fun
  | .bail _ => pure a
  | .panic msg => throw (.panic msg)

def attempt (m : M Conn Unit) : M Conn Unit := recover m ()

end M

def transportSend (bytes : Bytes) : M Conn Unit := do
  let w ← get
  match w.env.sends with
  | false :: rest =>
    M.put { w with env := { w.env with sends := rest } }
    match w.sess.transport with
    | .udp _ => throw (.bail "udp send_to")
    | .tcp _ => throw (.bail "tcp writer channel closed")
  | sends =>
    M.put { w with env := { w.env with sends := sends.tail }, log := w.log ++ [.wire bytes] }

end Javs
