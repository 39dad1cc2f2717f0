import Javs.Tasks
import Javs.Lib.Run

/-!
A session as a system that reacts to events.

Everything that happens to a session happens under its lock, one event at a time: a
control packet, a data packet, a packet from the TUN, or the visit of a periodic task.
Between two events other sessions may change the shared tables in any way.
-/

namespace Javs

open Lib

variable {Conn : Type}

inductive Event (Conn : Type)
  | control (env : Env Conn) (ctrl : ControlPacket) (replayPid : Option UInt32)
  | data (env : Env Conn) (pkt : Bytes)
  | tun (env : Env Conn) (ipPkt : Bytes)
  | ping (env : Env Conn)
  | rekey (env : Env Conn)
  | retransmit (env : Env Conn)
  | shutdown (env : Env Conn)
  /-- Activity of other sessions. -/
  | shared (tab : Tables)

variable (S : VpnServer Conn) (addr : SocketAddr)

/-- One event. The tasks only log the errors of their handlers, so a step has no result
beside the world. -/
def step (w : World Conn) : Event Conn → World Conn
  | .control env ctrl replayPid => (handleLocked S addr ctrl replayPid { w with env }).2
  | .data env pkt => (decryptAndForward S pkt { w with env }).2
  | .tun env ipPkt => (forwardLocked S ipPkt { w with env }).2
  | .ping env => (pingTick S { w with env }).2
  | .rekey env => (rekeyTick S { w with env }).2
  | .retransmit env => (retransmitTick S { w with env }).2
  | .shutdown env => (shutdownClient S { w with env }).2
  | .shared tab => { w with tab }

structure Opening (Conn : Type) where
  env : Env Conn
  conn : Conn
  tab : Tables
  ctrl : ControlPacket
  replayPid : Option UInt32
  peerId : UInt32
  transport : Transport

/-- The world in which a session starts: created, and greeted. -/
def started (o : Opening Conn) : World Conn :=
  (greet S o.ctrl
    ⟨newSession o.ctrl o.replayPid o.peerId o.transport o.conn o.env, o.tab, o.env, []⟩).2

/-! ### A server without cryptography -/

def plainServer : VpnServer Plain where
  cfg := { tunIp := .v4 0x0A080001, tunNetmask := .v4 0xFFFFFF00,
           clientPoolStart := .v4 0x0A08000A, clientPoolEnd := .v4 0x0A0800FA }
  poolEnd := 0x0A0800FA
  poolEndV6 := none
  prims := plainPrims
  rustls := plainTls

def plainEnv (r : UInt8) : Env Plain :=
  ⟨0, 0, some {}, List.replicate 32 r, List.replicate 32 r, 7, [], true⟩

def plainAddr : SocketAddr := ⟨.v4 0xC0000201, 40000⟩

def clientPacket (op : OpCode) (keyId : UInt8) (packetId : UInt32) (payload : Bytes) :
    ControlPacket :=
  ⟨op, keyId, 5, [], none, some packetId, payload⟩

def clientKm2 (r : UInt8) : Bytes :=
  [0, 0, 0, 0, 2] ++ List.replicate 112 r ++ (List.replicate 4 [0, 1, 0]).flatten

def plainOpening : Opening Plain where
  env := plainEnv 1
  conn := {}
  tab := { nextPoolIp := 0x0A08000A, nextPoolIpV6 := none }
  ctrl := clientPacket .controlHardResetClientV2 0 0 []
  replayPid := none
  peerId := 1
  transport := .udp plainAddr

/-- The client's key exchange and `PUSH_REQUEST`, in one packet. -/
def establishing : Event Plain :=
  .control (plainEnv 1)
    (clientPacket .controlV1 0 1 (clientKm2 3 ++ Bytes.ascii "PUSH_REQUEST" ++ [0])) none

end Javs
