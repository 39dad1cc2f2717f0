import Javs.Events

/-!
What the handlers do to a session, said once.

The abstract session keeps the fields that decide which keys, TLS contexts and addresses
are used, and forgets the rest. Every handler is a sequence of the moves below: whatever
branch it takes, and wherever an error makes it stop. Lanes tell apart what runs on the
main control track, what only flushes its TLS context, what runs on the rekey track, and
what only sends.
-/

namespace Javs

open Lib

/-- A rekey in progress, as far as the slots are concerned. -/
structure Track where
  keyId : UInt8
  state : RekeyState
  keyMethodSent : Bool

structure Abs where
  table : SlotTable
  state : State
  rekey : Option Track
  ip : Option IpAddr
  ip6 : Option Ipv6Addr
  peerId : UInt32
  nextPid : UInt32
  tab : Tables
  log : List Effect

variable {Conn : Type}

def RekeyTrack.track (rk : RekeyTrack Conn) : Track := ⟨rk.keyId, rk.state, rk.keyMethodSent⟩

def World.abs (w : World Conn) : Abs :=
  ⟨w.sess.toSlotTable, w.sess.state, w.sess.rekey.map RekeyTrack.track, w.sess.assignedIp,
    w.sess.assignedIpV6, w.sess.peerId, w.sess.nextPacketId, w.tab, w.log⟩

/-- The keys come out of the key derivation. -/
def Primitives.Derives (p : Primitives) (c : DataCipher) : Prop :=
  ∃ preMaster c1 s1 c2 s2 clientSid serverSid, c = .fromKeymatServer
    (deriveOpenvpnKeyData p preMaster c1 s1 c2 s2 clientSid serverSid)

def KeySlot.IsFresh (s : KeySlot) : Prop := s.dataPidOut = 1 ∧ s.replay = .new

lemma KeySlot.isFresh_fresh (keyId : UInt8) (keyData : Bytes) :
    (KeySlot.fresh keyId keyData).IsFresh := ⟨rfl, rfl⟩

def installs (log : List Effect) : List KeySlot :=
  log.filterMap fun
    | .installed s => some s
    | _ => none

/-- The control packets built so far that carry a packet id, in order. -/
def built (log : List Effect) : List ControlPacket :=
  log.filterMap fun
    | .frag _ p => some p
    | .reset p => some p
    | _ => none

def Effect.sent? : Effect → Option ControlPacket
  | .sent pkt => some pkt
  | _ => none

def sentPackets (log : List Effect) : List ControlPacket := log.filterMap Effect.sent?

lemma sentPackets_append (es es' : List Effect) :
    sentPackets (es ++ es') = sentPackets es ++ sentPackets es' := List.filterMap_append

def Effect.isAssigned : Effect → Bool
  | .assigned _ => true
  | _ => false

def Effect.isAssignedV6 : Effect → Bool
  | .assignedV6 _ => true
  | _ => false

/-- Since the log had `n` entries, an IPv4 address was assigned. -/
def assignedSince (n : ℕ) (log : List Effect) : Bool := (log.drop n).any Effect.isAssigned

def assignedV6Since (n : ℕ) (log : List Effect) : Bool := (log.drop n).any Effect.isAssignedV6

namespace Abs

def tell (a : Abs) (e : Effect) : Abs := { a with log := a.log ++ [e] }

def assign (a : Abs) (addr : SocketAddr) (ip : Ipv4Addr) : Abs :=
  { a with ip := some (.v4 ip),
           tab := { a.tab with routes := Function.update a.tab.routes ip (some addr) },
           log := a.log ++ [.assigned ip] }

def assignV6 (a : Abs) (addr : SocketAddr) (ip : Ipv6Addr) : Abs :=
  { a with ip6 := some ip,
           tab := { a.tab with routesV6 := Function.update a.tab.routesV6 ip (some addr),
                               nextPoolIpV6 := some (ip + 1) },
           log := a.log ++ [.assignedV6 ip] }

def bump (a : Abs) : Abs := { a with tab := { a.tab with nextPoolIp := a.tab.nextPoolIp + 1 } }

def startRekey (a : Abs) (keyId : UInt8) : Abs :=
  { a with rekey := some ⟨keyId, .handshaking, false⟩ }

/-- A packet with the next packet id is built and logged as `e`. -/
def build (a : Abs) (e : Effect) : Abs := { a with nextPid := a.nextPid + 1, log := a.log ++ [e] }

end Abs

inductive Lane
  | main
  | flush
  | rekey
  | send
  deriving DecidableEq

/-- One move in a lane of a handler that started when the log had `n` entries. -/
inductive Move (S : VpnServer Conn) (addr : SocketAddr) (n : ℕ) : Lane → Abs → Abs → Prop
  | wire (l a bytes) : Move S addr n l a (a.tell (.wire bytes))
  | sent (l a pkt) (h : pkt.packetId = none ∨ pkt ∈ built a.log) :
      Move S addr n l a (a.tell (.sent pkt))
  -- the main track
  | ack (l a pkt) (hl : l = .main ∨ l = .flush) (hk : pkt.keyId = a.table.activeKeyId) :
      Move S addr n l a (a.tell (.ack pkt))
  | drained (l a out) (hl : l = .main ∨ l = .flush) :
      Move S addr n l a (a.tell (.drained .main out))
  | frag (l a pkt) (hl : l = .main ∨ l = .flush) (hk : pkt.keyId = a.table.activeKeyId)
      (hp : pkt.packetId = some a.nextPid) : Move S addr n l a (a.build (.frag .main pkt))
  | handshaken (a) (hs : a.state = .handshaking) :
      Move S addr n .main a ({ a with state := .keyExchange }.tell (.handshaken .main))
  | installed (a slot) (hs : a.state = .keyExchange) (hk : slot.keyId = 0) (hf : slot.IsFresh)
      (hn : installs (a.log.drop n) = []) (hd : S.prims.Derives slot.cipher) :
      Move S addr n .main a ({ a with table := a.table.place slot }.tell (.installed slot))
  | keyed (a) (hs : a.state = .keyExchange) (ha : a.table.activeSlot.isSome) :
      Move S addr n .main a { a with state := .pushPending }
  | assignStatic (a ip) (hs : a.state = .pushPending) (hr : a.tab.routes ip = none)
      (hn : assignedSince n a.log = false) : Move S addr n .main a (a.assign addr ip)
  | assignPool (a) (hs : a.state = .pushPending) (hle : a.tab.nextPoolIp ≤ S.poolEnd)
      (hn : assignedSince n a.log = false) :
      Move S addr n .main a (a.bump.assign addr a.tab.nextPoolIp)
  | assignV6 (a ip) (e) (hs : a.state = .pushPending) (hc : a.tab.nextPoolIpV6 = some ip)
      (he : S.poolEndV6 = some e) (hle : ip ≤ e) (ha : assignedSince n a.log = true)
      (hn : assignedV6Since n a.log = false) : Move S addr n .main a (a.assignV6 addr ip)
  | established (a) (hs : a.state = .pushPending) (ha : assignedSince n a.log = true) :
      Move S addr n .main a { a with state := .established }
  | closed (a) (hs : a.state = .established) : Move S addr n .main a { a with state := .closed }
  -- the rekey track
  | rkHandshaken (a t) (h : a.rekey = some t) (hs : t.state = .handshaking) :
      Move S addr n .rekey a
        ({ a with rekey := some { t with state := .keyExchange } }.tell
          (.handshaken (.rekey t.keyId)))
  | rkInstalled (a t slot) (h : a.rekey = some t) (hs : t.state = .keyExchange)
      (hk : slot.keyId = t.keyId) (hf : slot.IsFresh) (hd : S.prims.Derives slot.cipher) :
      Move S addr n .rekey a
        ({ a with table := a.table.installSlot slot }.tell (.installed slot))
  | rkReplied (a t slot) (h : a.rekey = some t) (hs : t.state = .keyExchange)
      (hslot : a.table.slots (1 - a.table.activeSlotIdx) = some slot) (hk : slot.keyId = t.keyId)
      (hf : slot.IsFresh) (hl : a.log.getLast? = some (.installed slot)) :
      Move S addr n .rekey a
        ({ a with rekey := some { t with keyMethodSent := true } }.tell (.replied t.keyId))
  | rkDrained (a t out) (h : a.rekey = some t) :
      Move S addr n .rekey a (a.tell (.drained (.rekey t.keyId) out))
  | rkFrag (a t pkt) (h : a.rekey = some t) (hk : pkt.keyId = t.keyId)
      (hp : pkt.packetId = some a.nextPid) :
      Move S addr n .rekey a (a.build (.frag (.rekey t.keyId) pkt))
  | rkFinished (a t) (h : a.rekey = some t) (hs : t.keyMethodSent = true) :
      Move S addr n .rekey a
        ({ a with table := (a.table.promoteSlot t.keyId).2, rekey := none }.tell
          (.rekeyed t.keyId a.table (a.table.promoteSlot t.keyId).2))

/-! ### What the moves add to the log -/

/-- The effects that no move has: they belong to the event itself. -/
def Effect.ofEvent : Effect → Bool
  | .feed .. | .acked _ | .sealed .. | .opened .. | .tun .. => true
  | _ => false

variable {S : VpnServer Conn} {addr : SocketAddr} {n : ℕ} {l : Lane} {a b : Abs}

lemma Move.log (h : Move S addr n l a b) :
    b.log = a.log ∨ ∃ e : Effect, e.ofEvent = false ∧ b.log = a.log ++ [e] := by
  cases h
  case keyed | established | closed => exact .inl rfl
  all_goals exact .inr ⟨_, rfl, rfl⟩

lemma filterMap_moves {β : Type} {f : Effect → Option β}
    (hf : ∀ e : Effect, e.ofEvent = false → f e = none)
    (h : Relation.ReflTransGen (Move S addr n l) a b) :
    b.log.filterMap f = a.log.filterMap f := by
  induction h with
  | refl => rfl
  | tail _ hm ih =>
    rcases hm.log with e | ⟨e, he, hl⟩
    · rw [e, ih]
    · rw [hl, List.filterMap_append, ih]
      simp [hf e he]

end Javs
