import Javs.Receive
import Javs.DataPlane

/-!
The server on its network.

Datagrams and the frames of TCP streams come in, are dispatched by the receive loops, and
become tasks of the server or data packets on their way to a worker. Packets bear a tag here,
so that a trace can be compared with the trace from which some of them have been deleted.

What is not authentic leaves no mark: a control packet that does not pass the envelope ends
in the loop, and a data packet that does not open ends in the worker.
-/

namespace Javs

open Lib

variable {Conn : Type}

/-! ### Arrivals and events -/

/-- A data packet handed to the worker of the session `ref`. -/
structure Parcel where
  tag : ℕ
  addr : SocketAddr
  ref : Ref
  pkt : Bytes

structure Net (Conn : Type) where
  server : Server Conn
  /-- The data packets that wait for their workers. -/
  queue : List Parcel := []
  -- what follows is a record of the run; neither the server nor its tasks read it
  /-- For each task the transport of the packet, or the stream whose end, it was started for;
  the reaper's tasks have none. -/
  origins : List (Option Transport) := []
  /-- For each session the transport it was created over. -/
  made : List Transport := []
  /-- For each address the transport last heard from there. -/
  last : SocketAddr → Option Transport := fun _ => none

def Net.new (p : Pools) : Net Conn := { server := .new p }

inductive NetEvent (Conn : Type)
  /-- A datagram, or a frame of a TCP stream, arrives. -/
  | packet (tag : ℕ) (transport : Transport) (pkt : Bytes)
  /-- A worker takes up the data packet `tag`. -/
  | work (tag : ℕ) (env : Env Conn)
  /-- A TCP stream ends. -/
  | ended (stream : ℕ)
  | reap (addr : SocketAddr)
  | advance (i : ℕ) (env : Env Conn)
  | forward (env : Env Conn) (ipPkt : Bytes)
  /-- A periodic task does its part on a session. -/
  | tick (addr : SocketAddr) (ref : Ref) (env : Env Conn) (e : Event Conn)

def Event.isData : Event Conn → Bool
  | .data .. => true
  | _ => false

/-- The address at the other end, where `peer` has those of the TCP streams. -/
def Transport.addr (peer : ℕ → SocketAddr) : Transport → SocketAddr
  | .udp addr => addr
  | .tcp stream => peer stream

variable (S : VpnServer Conn) (peer : ℕ → SocketAddr)

def receive : Transport → Bytes → List Call
  | .udp addr => receiveDatagram S addr
  | .tcp stream => receiveFrame S (peer stream) stream

lemma receive_cases (transport : Transport) (pkt : Bytes) :
    receive S peer transport pkt = [] ∨
      (∃ wire, receive S peer transport pkt = [.routeData wire]) ∨
      ∃ wire inner replayPid, unwrapControl S wire = .ok (inner, replayPid) ∧
        receive S peer transport pkt = [.handleControlPacket (transport.addr peer)
          (inner.getD wire) replayPid transport] := by
  -- the two loops dispatch alike
  cases transport <;>
  · simp only [receive, receiveDatagram, receiveFrame]
    split
    · exact .inl rfl
    split
    · exact .inl rfl
    split
    · exact .inr (.inl ⟨_, rfl⟩)
    split
    · exact .inl rfl
    · rename_i hu
      exact .inr (.inr ⟨_, _, _, hu, rfl⟩)

def Call.isRouteData : Call → Bool
  | .routeData _ => true
  | .handleControlPacket .. => false

/-- A control packet that can be parsed becomes a task of the server. -/
def Call.toControl : Call → Option (ServerEvent Conn)
  | .routeData _ => none
  | .handleControlPacket addr pkt replayPid transport =>
    match ControlPacket.parse pkt with
    | .error _ => none
    | .ok ctrl => some (.control addr ctrl replayPid transport)

/-- A data packet with a route becomes a parcel. -/
def Call.toParcel (s : Server Conn) (tag : ℕ) (addr : SocketAddr) : Call → Option Parcel
  | .routeData pkt => (s.routeData pkt).map (⟨tag, addr, ·, pkt⟩)
  | .handleControlPacket .. => none

def Net.event (n : Net Conn) : NetEvent Conn → Option (ServerEvent Conn)
  | .packet _ transport pkt => (receive S peer transport pkt).findSome? Call.toControl
  | .work tag env =>
    (n.queue.find? (·.tag = tag)).map fun p => .visit p.addr p.ref env (.data env p.pkt)
  | .ended stream => some (.close (peer stream))
  | .reap addr => some (.reap addr)
  | .advance i env => some (.advance i env)
  | .forward env ipPkt => some (.forward env ipPkt)
  | .tick addr ref env e => if e.isData then none else some (.visit addr ref env e)

def Net.nextServer (n : Net Conn) (e : NetEvent Conn) : Server Conn :=
  match n.event S peer e with
  | none => n.server
  | some v => serve S n.server v

def Net.nextQueue (n : Net Conn) : NetEvent Conn → List Parcel
  | .packet tag transport pkt =>
    n.queue ++ (receive S peer transport pkt).filterMap
      (Call.toParcel n.server tag (transport.addr peer))
  | .work tag _ => n.queue.eraseP (·.tag = tag)
  | _ => n.queue

/-- The transport an event starts a task for. -/
def NetEvent.arrival : NetEvent Conn → Option Transport
  | .packet _ transport pkt =>
    ((receive S peer transport pkt).findSome? (@Call.toControl Conn)).map fun _ => transport
  | .ended stream => some (.tcp stream)
  | _ => none

def Net.nextOrigins (n : Net Conn) (e : NetEvent Conn) : List (Option Transport) :=
  match e, e.arrival S peer with
  | _, some transport => n.origins ++ [some transport]
  | .reap _, none => n.origins ++ [none]
  | _, none => n.origins

/-- The transport of the task at `i`, if its step made a session. -/
def Server.makes (s s' : Server Conn) (i : ℕ) : List Transport :=
  match s.tasks[i]? with
  | some (some ⟨_, .create _ _ transport⟩) =>
    if s.heap.length < s'.heap.length then [transport] else []
  | _ => []

def Net.nextMade (n : Net Conn) (e : NetEvent Conn) : List Transport :=
  match e with
  | .advance i _ => n.made ++ n.server.makes (n.nextServer S peer e) i
  | _ => n.made

def Net.nextLast (n : Net Conn) (e : NetEvent Conn) : SocketAddr → Option Transport :=
  match e.arrival S peer with
  | none => n.last
  | some transport => Function.update n.last (transport.addr peer) (some transport)

def netStep (n : Net Conn) (e : NetEvent Conn) : Net Conn where
  server := n.nextServer S peer e
  queue := n.nextQueue S peer e
  origins := n.nextOrigins S peer e
  made := n.nextMade S peer e
  last := n.nextLast S peer e

/-! ### What the server puts out -/

inductive Output
  | send (transport : Transport) (bytes : Bytes)
  | tun (plaintext : Bytes)
  deriving DecidableEq

def World.outputs (w : World Conn) : List Output :=
  w.log.filterMap fun
    | .wire bytes => some (.send w.sess.transport bytes)
    | .tun _ plaintext => some (.tun plaintext)
    | _ => none

/-- The session an event of the server opens. -/
def Server.opening (s : Server Conn) : ServerEvent Conn → Option (Opening Conn)
  | .advance i env =>
    match s.tasks[i]?, env.conn with
    | some (some ⟨_, .create ctrl replayPid transport⟩), some conn =>
      some ⟨env, conn, s.tab, ctrl, replayPid, s.newPeerId, transport⟩
    | _, _ => none
  | _ => none

def Server.outputs (s : Server Conn) (e : ServerEvent Conn) : List Output :=
  match s.opening e, s.worksOn e with
  | some op, _ => (started S op).outputs
  | none, some (addr, w, v) => (step S addr w v).outputs
  | none, none => []

def Net.outputs (n : Net Conn) (e : NetEvent Conn) : List Output :=
  match n.event S peer e with
  | none => []
  | some v => n.server.outputs S v

/-! ### Packets that are not authentic -/

def Session.opens (p : Primitives) (sess : Session Conn) (pkt : Bytes) : Bool :=
  match DataPacketV2.parse pkt, Bytes.slice pkt 0 8 with
  | .ok dp, .ok aad =>
    match sess.slotByKeyId dp.keyId with
    | some slot => (slot.cipher.open' p dp.packetId aad dp.ciphertext).isOk
    | none => false
  | _, _ => false

def Server.opens (s : Server Conn) (ref : Ref) (pkt : Bytes) : Bool :=
  match s.heap[ref]? with
  | some o => o.sess.opens S.prims pkt
  | none => false

/-- None of the packets with tags in `D` passes the envelope, nor opens when its worker takes it
up. -/
def Unauthentic (D : ℕ → Bool) (n : Net Conn) : NetEvent Conn → Prop
  | .packet tag transport pkt =>
    D tag = true → (receive S peer transport pkt).all Call.isRouteData = true
  | .work tag _ => D tag = true →
    match n.queue.find? (·.tag = tag) with
    | some p => n.server.opens S p.ref p.pkt = false
    | none => True
  | _ => True

instance (D : ℕ → Bool) (n : Net Conn) (e : NetEvent Conn) :
    Decidable (Unauthentic S peer D n e) := by
  unfold Unauthentic
  split
  · infer_instance
  · split <;> infer_instance
  · infer_instance

/-- The events that are left when the packets with tags in `D` are deleted. -/
def NetEvent.kept (D : ℕ → Bool) : NetEvent Conn → Bool
  | .packet tag .. | .work tag _ => !D tag
  | _ => true

/-- Two networks with the same server, one of which has the parcels of `D` in addition. -/
structure Alike (D : ℕ → Bool) (n m : Net Conn) : Prop where
  server : m.server = n.server
  queue : m.queue = n.queue.filter fun p => !D p.tag
  origins : m.origins = n.origins
  made : m.made = n.made
  last : m.last = n.last

section Powerless

variable {S peer} {D : ℕ → Bool} {n m : Net Conn}

lemma Opens.opens {w : World Conn} {pkt : Bytes} {dp : DataPacketV2} {i : Fin 2}
    {slot : KeySlot} {plaintext : Bytes} (h : Opens S w pkt dp i slot plaintext) :
    w.sess.opens S.prims pkt = true := by
  obtain ⟨aad, ha, ho⟩ := h.authentic
  have hslot : w.sess.slotByKeyId dp.keyId = some slot := by
    rw [SlotTable.slotByKeyId, h.position]
    exact h.found
  simp only [Session.opens, h.parse, ha, hslot, ho]
  rfl

lemma step_data_of_not_opens {w : World Conn} {pkt : Bytes} (h : w.sess.opens S.prims pkt = false)
    (addr : SocketAddr) (env : Env Conn) : step S addr w (.data env pkt) = { w with env } := by
  rcases decryptAndForward_cases (S := S) { w with env } pkt with
    ⟨e, he⟩ | ⟨dp, i, slot, plaintext, ho, -⟩
  · rw [step, he]
  · have hopens : w.sess.opens S.prims pkt = true := ho.opens
    rw [hopens] at h
    cases h

lemma serve_data_of_not_opens {s : Server Conn} {ref : Ref} {pkt : Bytes}
    (h : s.opens S ref pkt = false) (addr : SocketAddr) (env : Env Conn) :
    serve S s (.visit addr ref env (.data env pkt)) = s ∧
      s.outputs S (.visit addr ref env (.data env pkt)) = [] := by
  rcases hr : s.heap[ref]? with _ | o
  · refine ⟨underLock_of_none hr _, ?_⟩
    simp [Server.outputs, Server.opening, Server.worksOn, Server.locked, hr]
  · have hstep : step S addr ⟨o.sess, s.tab, env, []⟩ (.data env pkt) =
        ⟨o.sess, s.tab, env, []⟩ := by
      refine step_data_of_not_opens ?_ addr env
      simpa only [Server.opens, hr] using h
    constructor
    · show underLock S s addr ref env (.data env pkt) = s
      have hset : s.heap.set ref o = s.heap := by
        obtain ⟨hlt, rfl⟩ := List.getElem?_eq_some_iff.mp hr
        exact List.set_getElem_self hlt
      rw [underLock_of_some hr, hstep]
      show { s with heap := s.heap.set ref o } = s
      rw [hset]
    · simp [Server.outputs, Server.opening, Server.worksOn, Server.locked, hr, Event.isVisit,
        hstep, World.outputs]

lemma findSome?_toControl {calls : List Call} (h : calls.all Call.isRouteData = true) :
    calls.findSome? (@Call.toControl Conn) = none := by
  rw [List.findSome?_eq_none_iff]
  intro c hc
  have hroute := List.all_eq_true.mp h c hc
  cases c with
  | routeData => rfl
  | handleControlPacket => cases hroute

lemma tag_of_toParcel {s : Server Conn} {tag : ℕ} {addr : SocketAddr} {c : Call} {p : Parcel}
    (h : c.toParcel s tag addr = some p) : p.tag = tag := by
  cases c with
  | routeData pkt =>
    obtain ⟨ref, -, rfl⟩ := Option.map_eq_some_iff.mp h
    rfl
  | handleControlPacket => cases h

lemma filter_toParcel (s : Server Conn) (tag : ℕ) (addr : SocketAddr) (calls : List Call) :
    (calls.filterMap (Call.toParcel s tag addr)).filter (fun p => !D p.tag) =
      if D tag then [] else calls.filterMap (Call.toParcel s tag addr) := by
  split
  · rename_i hD
    refine List.filter_eq_nil_iff.mpr fun p hp => ?_
    obtain ⟨c, -, hc⟩ := List.mem_filterMap.mp hp
    simp [tag_of_toParcel hc, hD]
  · rename_i hD
    refine List.filter_eq_self.mpr fun p hp => ?_
    obtain ⟨c, -, hc⟩ := List.mem_filterMap.mp hp
    simp [tag_of_toParcel hc, hD]

lemma find?_filter_kept {tag : ℕ} (hD : D tag = false) (q : List Parcel) :
    (q.filter fun p => !D p.tag).find? (·.tag = tag) = q.find? (·.tag = tag) := by
  rw [List.find?_filter]
  congr 1
  funext p
  by_cases hp : p.tag = tag
  · simp [hp, hD]
  · simp [hp]

lemma filter_eraseP_tag (tag : ℕ) (q : List Parcel) :
    (q.eraseP (·.tag = tag)).filter (fun p => !D p.tag) =
      if D tag then q.filter fun p => !D p.tag
      else (q.filter fun p => !D p.tag).eraseP (·.tag = tag) := by
  induction q with
  | nil => simp
  | cons p q ih =>
    by_cases hp : p.tag = tag
    · by_cases hD : D tag = true <;> simp [hp, hD]
    · by_cases hD : D tag = true <;> by_cases hDp : D p.tag = true <;> simp_all

lemma Alike.event_eq (h : Alike D n m) {e : NetEvent Conn} (hk : e.kept D = true) :
    m.event S peer e = n.event S peer e := by
  cases e with
  | work tag env =>
    have hD : D tag = false := by simpa [NetEvent.kept] using hk
    simp only [Net.event, h.queue, find?_filter_kept hD]
  | packet | ended | reap | advance | forward | tick => rfl

lemma Alike.kept_step (h : Alike D n m) {e : NetEvent Conn} (hk : e.kept D = true) :
    Alike D (netStep S peer n e) (netStep S peer m e) := by
  have hserver : m.nextServer S peer e = n.nextServer S peer e := by
    simp only [Net.nextServer, h.event_eq hk, h.server]
  refine ⟨hserver, ?_, ?_, ?_, ?_⟩
  · show m.nextQueue S peer e = (n.nextQueue S peer e).filter _
    cases e with
    | packet tag transport pkt =>
      have hD : D tag = false := by simpa [NetEvent.kept] using hk
      simp only [Net.nextQueue, h.queue, h.server, List.filter_append, filter_toParcel, hD]
      rfl
    | work tag env =>
      have hD : D tag = false := by simpa [NetEvent.kept] using hk
      simp only [Net.nextQueue, h.queue, filter_eraseP_tag, hD]
      rfl
    | ended | reap | advance | forward | tick => exact h.queue
  · simp only [netStep, Net.nextOrigins, h.origins]
  · simp only [netStep, Net.nextMade, h.made, h.server, hserver]
  · simp only [netStep, Net.nextLast, h.last]

lemma Alike.dropped_step (h : Alike D n m) {e : NetEvent Conn} (hk : e.kept D = false)
    (hu : Unauthentic S peer D n e) :
    Alike D (netStep S peer n e) m ∧ n.outputs S peer e = [] := by
  cases e with
  | packet tag transport pkt =>
    -- a dropped packet calls no control task, so that only the queue grows
    have hD : D tag = true := by simpa [NetEvent.kept] using hk
    have hnone : (receive S peer transport pkt).findSome? (@Call.toControl Conn) = none :=
      findSome?_toControl (hu hD)
    refine ⟨⟨?_, ?_, ?_, h.made, ?_⟩, ?_⟩
    · simp only [netStep, Net.nextServer, Net.event, hnone, h.server]
    · simp only [netStep, Net.nextQueue, List.filter_append, filter_toParcel, hD, if_true,
        List.append_nil, h.queue]
    · simp only [netStep, Net.nextOrigins, NetEvent.arrival, hnone, Option.map_none, h.origins]
    · simp only [netStep, Net.nextLast, NetEvent.arrival, hnone, Option.map_none, h.last]
    · simp only [Net.outputs, Net.event, hnone]
  | work tag env =>
    have hD : D tag = true := by simpa [NetEvent.kept] using hk
    -- a dropped data call works on bytes that do not open
    have hquiet : n.nextServer S peer (.work tag env) = n.server ∧
        n.outputs S peer (.work tag env) = [] := by
      have hp := hu hD
      rcases hf : n.queue.find? (·.tag = tag) with _ | p
      · simp only [Net.nextServer, Net.outputs, Net.event, hf, Option.map_none, and_self]
      · simp only [Net.nextServer, Net.outputs, Net.event, hf, Option.map_some]
        rw [hf] at hp
        exact serve_data_of_not_opens hp p.addr env
    refine ⟨⟨?_, ?_, h.origins, h.made, h.last⟩, hquiet.2⟩
    · exact h.server.trans hquiet.1.symm
    · show m.queue = (n.queue.eraseP (·.tag = tag)).filter _
      rw [filter_eraseP_tag, if_pos hD, h.queue]
  | ended | reap | advance | forward | tick => cases hk

end Powerless

/-- **Packets that are not authentic have no influence.** Delete from any run of the server any
packets that neither pass the envelope nor open under a slot: the server ends in the same state,
and has put out the same. -/
theorem unauthentic_powerless (p : Pools) (D : ℕ → Bool) (es : List (NetEvent Conn))
    (h : AllMeet (netStep S peer) (Unauthentic S peer D) (Net.new p) es) :
    let full := run (netStep S peer) (Net.new p) es
    let less := run (netStep S peer) (Net.new p) (es.filter (NetEvent.kept D))
    less.server = full.server ∧ less.queue = full.queue.filter (fun p => !D p.tag) ∧
      (trace (netStep S peer) (Net.new p) (es.filter (NetEvent.kept D))).flatMap
          (fun x => x.1.outputs S peer x.2) =
        (trace (netStep S peer) (Net.new p) es).flatMap fun x => x.1.outputs S peer x.2 := by
  intro full less
  have hkeep (n m : Net Conn) (e : NetEvent Conn) (hnm : Alike D n m)
      (_ : Unauthentic S peer D n e) (hk : e.kept D = true) :
      Alike D (netStep S peer n e) (netStep S peer m e) ∧
        m.outputs S peer e = n.outputs S peer e := by
    refine ⟨hnm.kept_step hk, ?_⟩
    simp only [Net.outputs, hnm.event_eq hk, hnm.server]
  have hdrop (n m : Net Conn) (e : NetEvent Conn) (hnm : Alike D n m)
      (hu : Unauthentic S peer D n e) (hk : e.kept D = false) :
      Alike D (netStep S peer n e) m ∧ n.outputs S peer e = [] := hnm.dropped_step hk hu
  have hnew : Alike D (Net.new p : Net Conn) (Net.new p) := ⟨rfl, rfl, rfl, rfl, rfl⟩
  obtain ⟨halike, hout⟩ := run_filter hkeep hdrop hnew h
  exact ⟨halike.server, halike.queue, hout⟩

def authServer : VpnServer Plain := { plainServer with tlsAuth := some ⟨[], []⟩ }

def enveloped (ctrl : ControlPacket) (replayPid : UInt32) : Bytes :=
  match TlsAuthKey.wrap plainPrims ⟨[], []⟩ ctrl.encode replayPid 0 with
  | .ok pkt => pkt
  | .error _ => []

/-- A client connects and sends a data packet. In between there come a `HARD_RESET` with a wrong
HMAC, a packet too short for one, and a data packet that does not open, with tags from 8 on. -/
def noisyRun : List (NetEvent Plain) :=
  [.packet 8 (.udp otherAddr) (clientReset.encode ++ List.replicate 48 1),
    .packet 0 (.udp plainAddr) (enveloped clientReset 1)] ++
  List.replicate 6 (.advance 0 (plainEnv 1)) ++
  [.packet 9 (.tcp 0) clientReset.encode, .packet 1 (.udp plainAddr) (enveloped clientPush 2)] ++
  List.replicate 3 (.advance 1 (plainEnv 1)) ++
  [.packet 10 (.udp otherAddr) (Session.dataHeader 1 0 1 ++ List.replicate 20 0),
    .packet 2 (.udp plainAddr) (clientData 1 [0x45, 0]), .work 10 (plainEnv 1),
    .work 2 (plainEnv 1)]

theorem unauthentic_powerless_noisy :
    let net := netStep authServer fun _ => otherAddr
    let full := run net (Net.new plainPools) noisyRun
    let less := run net (Net.new plainPools) (noisyRun.filter (NetEvent.kept (8 ≤ ·)))
    Output.tun [0x45, 0] ∈ (trace net (Net.new plainPools) noisyRun).flatMap
        (fun x => x.1.outputs authServer (fun _ => otherAddr) x.2) ∧
      less.server = full.server ∧ less.queue = full.queue.filter (fun p => !(8 ≤ p.tag)) ∧
        (trace net (Net.new plainPools) (noisyRun.filter (NetEvent.kept (8 ≤ ·)))).flatMap
            (fun x => x.1.outputs authServer (fun _ => otherAddr) x.2) =
          (trace net (Net.new plainPools) noisyRun).flatMap
            fun x => x.1.outputs authServer (fun _ => otherAddr) x.2 :=
  ⟨by decide +kernel, unauthentic_powerless authServer (fun _ => otherAddr) plainPools (8 ≤ ·)
    noisyRun (by decide +kernel)⟩

end Javs
