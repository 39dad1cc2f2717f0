import Javs.Assign

/-!
The server: its maps, and the tasks that work on them side by side.

Sessions are objects of their own, held by reference: a task that has taken a session out of
the map keeps it, whatever happens to the map entry. Each task runs in steps. What it does
under a session's lock is one step; outside of it, every access to a map is a step. Between
two steps of a task any other task may take its own.
-/

namespace Javs

open Lib

variable {Conn : Type}

/-! ### Maps and objects -/

/-- The name of a session object, for which an `Arc` stands in the code. -/
abbrev Ref := ℕ

/-- A session, with the address it was created for. The code does not keep the address; no
task reads it here. -/
structure Object (Conn : Type) where
  home : SocketAddr
  sess : Session Conn

/-- What a task still has to do to the maps, for the session it has in hand. -/
inductive MapOp
  | insertSession
  | insertPeer (pid : UInt32)
  | insertData (pid : UInt32)
  | removeSession
  | removeRoute (ip : Ipv4Addr)
  | removeRouteV6 (ip : Ipv6Addr)
  | removePeer (pid : UInt32)
  | removeData (pid : UInt32)
  deriving DecidableEq, Repr

inductive Stage
  /-- A control packet has arrived. -/
  | arrived (ctrl : ControlPacket) (replayPid : Option UInt32) (transport : Transport)
  /-- It is a `HARD_RESET`, and the address had no session. -/
  | create (ctrl : ControlPacket) (replayPid : Option UInt32) (transport : Transport)
  | lookup (ctrl : ControlPacket) (replayPid : Option UInt32)
  | locked (ref : Ref) (ctrl : ControlPacket) (replayPid : Option UInt32)
  /-- The reaper has come to the address. -/
  | visit
  | reap (ref : Ref)
  /-- The TCP stream of the address has ended. -/
  | closing
  | teardown (ref : Ref)
  | ops (ref : Ref) (todo : List MapOp)

structure Task where
  addr : SocketAddr
  stage : Stage

structure Server (Conn : Type) where
  heap : List (Object Conn) := []
  sessions : SocketAddr → Option Ref := fun _ => none
  peers : UInt32 → Option SocketAddr := fun _ => none
  /-- For each peer id the session whose worker takes its data packets. -/
  dataRoutes : UInt32 → Option Ref := fun _ => none
  tab : Tables
  nextPeerId : UInt32 := 1
  /-- The tasks started so far; `none` when finished. -/
  tasks : List (Option Task) := []

def Server.new (p : Pools) : Server Conn :=
  { tab := { nextPoolIp := p.start, nextPoolIpV6 := p.v6.map Prod.fst } }

def Stage.ref? : Stage → Option Ref
  | .locked ref .. | .reap ref | .teardown ref | .ops ref _ => some ref
  | _ => none

def Stage.isFirst : Stage → Bool
  | .arrived .. | .visit | .closing => true
  | _ => false

lemma Stage.ref?_of_isFirst {st : Stage} (h : st.isFirst = true) : st.ref? = none := by
  cases st <;> first | rfl | cases h

def MapOp.run (op : MapOp) (addr : SocketAddr) (ref : Ref) (s : Server Conn) : Server Conn :=
  match op with
  | .insertSession => { s with sessions := Function.update s.sessions addr (some ref) }
  | .insertPeer pid => { s with peers := Function.update s.peers pid (some addr) }
  | .insertData pid => { s with dataRoutes := Function.update s.dataRoutes pid (some ref) }
  | .removeSession => { s with sessions := Function.update s.sessions addr none }
  | .removeRoute ip =>
    { s with tab := { s.tab with routes := Function.update s.tab.routes ip none } }
  | .removeRouteV6 ip =>
    { s with tab := { s.tab with routesV6 := Function.update s.tab.routesV6 ip none } }
  | .removePeer pid => { s with peers := Function.update s.peers pid none }
  | .removeData pid => { s with dataRoutes := Function.update s.dataRoutes pid none }

lemma MapOp.heap_run (op : MapOp) (addr : SocketAddr) (ref : Ref) (s : Server Conn) :
    (op.run addr ref s).heap = s.heap := by
  cases op <;> rfl

def MapOp.pid? : MapOp → Option UInt32
  | .insertPeer pid | .insertData pid | .removePeer pid | .removeData pid => some pid
  | _ => none

/-! ### Tasks -/

def insertOps (pid : UInt32) : List MapOp := [.insertSession, .insertPeer pid, .insertData pid]

def removeRoutes (ip : Option IpAddr) (ip6 : Option Ipv6Addr) : List MapOp :=
  (match ip with
    | some (.v4 ip) => [.removeRoute ip]
    | _ => []) ++
  (match ip6 with
    | some ip => [.removeRouteV6 ip]
    | none => [])

lemma mem_removeRoutes {ip : Option IpAddr} {ip6 : Option Ipv6Addr} {op : MapOp}
    (h : op ∈ removeRoutes ip ip6) :
    (∃ a, ip = some (.v4 a) ∧ op = .removeRoute a) ∨ ∃ a, ip6 = some a ∧ op = .removeRouteV6 a := by
  unfold removeRoutes at h
  rcases List.mem_append.mp h with h | h
  · rcases ip with _ | _ | _ <;> simp at h
    exact .inl ⟨_, rfl, h⟩
  · rcases ip6 with _ | _ <;> simp at h
    exact .inr ⟨_, rfl, h⟩

/-- The entries, beside that in `sessions`, which the reaper and the teardown of a TCP stream
remove. -/
def removeOps (sess : Session Conn) : List MapOp :=
  removeRoutes sess.assignedIp sess.assignedIpV6 ++ [.removePeer sess.peerId,
    .removeData sess.peerId]

lemma mem_removeOps {sess : Session Conn} {op : MapOp} (h : op ∈ removeOps sess) :
    (op.pid? = none ∨ op.pid? = some sess.peerId) ∧ op ≠ .insertSession ∧ op ≠ .removeSession := by
  rcases List.mem_append.mp h with h | h
  · rcases mem_removeRoutes h with ⟨a, -, rfl⟩ | ⟨a, -, rfl⟩ <;> simp [MapOp.pid?]
  · simp only [List.mem_cons, List.not_mem_nil, or_false] at h
    rcases h with rfl | rfl <;> simp [MapOp.pid?]

def Server.newPeerId (s : Server Conn) : UInt32 := s.nextPeerId &&& 0x00FFFFFF

variable (S : VpnServer Conn)

/-- The first part of `handle_control_packet` for a new peer, up to the entries in the maps:
a fresh session answers the `HARD_RESET`. -/
def createSession (env : Env Conn) (s : Server Conn) (addr : SocketAddr) (ctrl : ControlPacket)
    (replayPid : Option UInt32) (transport : Transport) : Server Conn × Option Stage :=
  match env.conn with
  | none => (s, none)
  | some conn =>
    let sess := newSession ctrl replayPid s.newPeerId transport conn env
    let s' := { s with nextPeerId := s.nextPeerId + 1 }
    match greet S ctrl ⟨sess, s.tab, env, []⟩ with
    | (.error _, _) => (s', none)
    | (.ok _, w) => ({ s' with heap := s.heap ++ [⟨addr, w.sess⟩] },
        some (.ops s.heap.length (insertOps s.newPeerId)))

/-- An event happens to the session `ref`, under its lock, in one step. In `fine` the accesses to
what the sessions share are steps of their own. -/
def underLock (s : Server Conn) (addr : SocketAddr) (ref : Ref) (env : Env Conn)
    (e : Event Conn) : Server Conn :=
  match s.heap[ref]? with
  | none => s
  | some o =>
    let w := step S addr ⟨o.sess, s.tab, env, []⟩ e
    { s with heap := s.heap.set ref { o with sess := w.sess }, tab := w.tab }

/-- The step of a task in its stage, and the stage after it. -/
def Task.next (env : Env Conn) (s : Server Conn) (t : Task) : Server Conn × Option Stage :=
  match t.stage with
  | .arrived ctrl replayPid transport =>
    if ctrl.op.isHardResetClient ∧ (s.sessions t.addr).isNone then
      (s, some (.create ctrl replayPid transport))
    else (s, some (.lookup ctrl replayPid))
  | .create ctrl replayPid transport => createSession S env s t.addr ctrl replayPid transport
  | .lookup ctrl replayPid => (s, (s.sessions t.addr).map fun ref => .locked ref ctrl replayPid)
  | .locked ref ctrl replayPid =>
    (underLock S s t.addr ref env (.control env ctrl replayPid), none)
  | .visit => (s, (s.sessions t.addr).map .reap)
  | .reap ref =>
    match s.heap[ref]? with
    | none => (s, none)
    | some o =>
      if env.now - o.sess.lastSeen ≥ S.cfg.keepaliveTimeout.toNat * 1000 then
        (s, some (.ops ref (.removeSession :: removeOps o.sess)))
      else (s, none)
  | .closing =>
    match s.sessions t.addr with
    | none => (s, none)
    | some ref =>
      ({ s with sessions := Function.update s.sessions t.addr none }, some (.teardown ref))
  | .teardown ref =>
    match s.heap[ref]? with
    | none => (s, none)
    | some o => (s, some (.ops ref (removeOps o.sess)))
  | .ops _ [] => (s, none)
  | .ops ref (op :: todo) => (op.run t.addr ref s, some (.ops ref todo))

/-! ### Packets from the TUN -/

/-- The destination of a packet from the TUN, if it is whole enough to have one. -/
def tunDestination (ipPkt : Bytes) : Option IpAddr :=
  match ipPkt with
  | [] => none
  | b :: _ =>
    if b >>> 4 = 4 then
      if ipPkt.length < 20 then none
      else some (.v4 (UInt32.ofNat (Bytes.ofBe ((ipPkt.drop 16).take 4))))
    else if b >>> 4 = 6 then
      if ipPkt.length < 40 then none
      else some (.v6 (BitVec.ofNat 128 (Bytes.ofBe ((ipPkt.drop 24).take 16))))
    else none

def Tables.route (tab : Tables) : IpAddr → Option SocketAddr
  | .v4 ip => tab.routes ip
  | .v6 ip => tab.routesV6 ip

/-- The session `forward_tun_to_client` seals a packet for, with its address. -/
def Server.forwardTarget (s : Server Conn) (ipPkt : Bytes) : Option (SocketAddr × Ref) := do
  let dst ← tunDestination ipPkt
  let addr ← s.tab.route dst
  let ref ← s.sessions addr
  return (addr, ref)

/-- The session whose worker `route_data` hands an inbound data packet to. -/
def Server.routeData (s : Server Conn) (pkt : Bytes) : Option Ref :=
  match DataPacketV2.parse pkt with
  | .error _ => none
  | .ok dp => s.dataRoutes dp.peerId

/-! ### Runs -/

inductive ServerEvent (Conn : Type)
  | control (addr : SocketAddr) (ctrl : ControlPacket) (replayPid : Option UInt32)
      (transport : Transport)
  | reap (addr : SocketAddr)
  | close (addr : SocketAddr)
  /-- The task at position `i` takes its next step. -/
  | advance (i : ℕ) (env : Env Conn)
  | forward (env : Env Conn) (ipPkt : Bytes)
  /-- A data worker or a periodic task does its part on a session. -/
  | visit (addr : SocketAddr) (ref : Ref) (env : Env Conn) (e : Event Conn)

def Server.spawn (s : Server Conn) (addr : SocketAddr) (stage : Stage) : Server Conn :=
  { s with tasks := s.tasks ++ [some ⟨addr, stage⟩] }

/-- Events that come from the data workers and the periodic tasks. -/
def Event.isVisit : Event Conn → Bool
  | .control .. | .shared _ => false
  | _ => true

def serve (s : Server Conn) : ServerEvent Conn → Server Conn
  | .control addr ctrl replayPid transport => s.spawn addr (.arrived ctrl replayPid transport)
  | .reap addr => s.spawn addr .visit
  | .close addr => s.spawn addr .closing
  | .advance i env =>
    match s.tasks[i]? with
    | some (some t) =>
      let (s', stage) := t.next S env s
      { s' with tasks := s.tasks.set i (stage.map (⟨t.addr, ·⟩)) }
    | _ => s
  | .forward env ipPkt =>
    match s.forwardTarget ipPkt with
    | none => s
    | some (addr, ref) => underLock S s addr ref env (.tun env ipPkt)
  | .visit addr ref env e => if e.isVisit then underLock S s addr ref env e else s

def Server.Idle (s : Server Conn) : Prop := ∀ t ∈ s.tasks, t = none

instance (s : Server Conn) : Decidable s.Idle :=
  inferInstanceAs (Decidable (∀ t ∈ s.tasks, t = none))

/-! ### What a step can do -/

def Object.holding (o : Object Conn) (tab : Tables) : Holding :=
  ⟨o.sess.state, o.sess.assignedIp, o.sess.assignedIpV6, o.sess.peerId, tab⟩

/-- What a step of the task `t` does to the server, and the stage the task is in then. -/
inductive Acts (s : Server Conn) (t : Task) : Server Conn → Option Stage → Prop
  | unknown {ctrl replayPid transport} (ht : t.stage = .arrived ctrl replayPid transport)
      (hn : s.sessions t.addr = none) : Acts s t s (some (.create ctrl replayPid transport))
  | known {ctrl replayPid transport} (ht : t.stage = .arrived ctrl replayPid transport) :
      Acts s t s (some (.lookup ctrl replayPid))
  | notCreated {ctrl replayPid transport} (ht : t.stage = .create ctrl replayPid transport)
      (next) : Acts s t { s with nextPeerId := next } none
  | created {ctrl replayPid transport} (ht : t.stage = .create ctrl replayPid transport)
      (next) (o : Object Conn) (hh : o.home = t.addr)
      (ho : o.holding s.tab = ⟨.handshaking, none, none, s.newPeerId, s.tab⟩) :
      Acts s t { s with nextPeerId := next, heap := s.heap ++ [o] }
        (some (.ops s.heap.length (insertOps s.newPeerId)))
  | missing (ht : t.stage.ref? = none) (hn : s.sessions t.addr = none) : Acts s t s none
  | found {ctrl replayPid} (ht : t.stage = .lookup ctrl replayPid) (ref)
      (hs : s.sessions t.addr = some ref) : Acts s t s (some (.locked ref ctrl replayPid))
  | visited (ht : t.stage = .visit) (ref) (hs : s.sessions t.addr = some ref) :
      Acts s t s (some (.reap ref))
  | handled {ref ctrl replayPid} (ht : t.stage = .locked ref ctrl replayPid) (o o' : Object Conn)
      (tab) (ho : s.heap[ref]? = some o) (hh : o'.home = o.home)
      (ha : Assigns t.addr (o.holding s.tab) (o'.holding tab)) :
      Acts s t { s with heap := s.heap.set ref o', tab } none
  | spared {ref} (ht : t.stage = .reap ref) : Acts s t s none
  | reaped {ref} (ht : t.stage = .reap ref) (o) (ho : s.heap[ref]? = some o) :
      Acts s t s (some (.ops ref (.removeSession :: removeOps o.sess)))
  | closed (ht : t.stage = .closing) (ref) (hs : s.sessions t.addr = some ref) :
      Acts s t { s with sessions := Function.update s.sessions t.addr none }
        (some (.teardown ref))
  | torn {ref} (ht : t.stage = .teardown ref) (o) (ho : s.heap[ref]? = some o) :
      Acts s t s (some (.ops ref (removeOps o.sess)))
  | done {ref} (ht : t.stage = .ops ref []) : Acts s t s none
  | op {ref op todo} (ht : t.stage = .ops ref (op :: todo)) :
      Acts s t (op.run t.addr ref s) (some (.ops ref todo))
  /-- The session in hand does not exist. -/
  | lost {ref} (ht : t.stage.ref? = some ref) (hn : s.heap[ref]? = none) : Acts s t s none

variable {S}

lemma createSession_acts {env : Env Conn} {s : Server Conn} {t : Task} {ctrl : ControlPacket}
    {replayPid : Option UInt32} {transport : Transport}
    (ht : t.stage = .create ctrl replayPid transport) :
    Acts s t (createSession S env s t.addr ctrl replayPid transport).1
      (createSession S env s t.addr ctrl replayPid transport).2 := by
  unfold createSession
  rcases hc : env.conn with _ | conn
  · exact .notCreated ht s.nextPeerId
  · obtain ⟨reply, -, hm⟩ := started_moves S t.addr
      ⟨env, conn, s.tab, ctrl, replayPid, s.newPeerId, transport⟩
    have hh := holding_moves hm nofun
    unfold started at hh
    dsimp only at hh ⊢
    rcases hg : greet S ctrl
      ⟨newSession ctrl replayPid s.newPeerId transport conn env, s.tab, env, []⟩ with ⟨_ | _, w⟩
    · exact .notCreated ht _
    · rw [hg] at hh
      refine .created ht _ ⟨t.addr, w.sess⟩ rfl ?_
      have hst : w.sess.state = .handshaking := congrArg Holding.state hh
      have hip : w.sess.assignedIp = none := congrArg Holding.ip hh
      have hip6 : w.sess.assignedIpV6 = none := congrArg Holding.ip6 hh
      have hpid : w.sess.peerId = s.newPeerId := congrArg Holding.peerId hh
      simp only [Object.holding, hst, hip, hip6, hpid]

lemma underLock_of_some {env : Env Conn} {s : Server Conn} {addr : SocketAddr} {ref : Ref}
    {o : Object Conn} (ho : s.heap[ref]? = some o) (e : Event Conn) :
    underLock S s addr ref env e =
      { s with heap := s.heap.set ref
                { o with sess := (step S addr ⟨o.sess, s.tab, env, []⟩ e).sess },
               tab := (step S addr ⟨o.sess, s.tab, env, []⟩ e).tab } := by
  unfold underLock
  rw [ho]

lemma underLock_of_none {env : Env Conn} {s : Server Conn} {addr : SocketAddr} {ref : Ref}
    (hn : s.heap[ref]? = none) (e : Event Conn) : underLock S s addr ref env e = s := by
  unfold underLock
  rw [hn]

lemma next_acts (env : Env Conn) (s : Server Conn) (t : Task) :
    Acts s t (t.next S env s).1 (t.next S env s).2 := by
  unfold Task.next
  rcases ht : t.stage with ⟨ctrl, replayPid, transport⟩ | ⟨ctrl, replayPid, transport⟩ |
    ⟨ctrl, replayPid⟩ | ⟨ref, ctrl, replayPid⟩ | _ | ref | _ | ref | ⟨ref, _ | ⟨op, todo⟩⟩ <;>
    dsimp only
  · split
    · rename_i h
      exact .unknown ht (Option.isNone_iff_eq_none.mp h.2)
    · exact .known ht
  · exact createSession_acts ht
  · rcases hs : s.sessions t.addr with _ | ref
    · exact .missing (by rw [ht]; rfl) hs
    · exact .found ht ref hs
  · rcases ho : s.heap[ref]? with _ | o
    · rw [underLock_of_none ho]
      exact .lost (by rw [ht]; rfl) ho
    · rw [underLock_of_some ho]
      have ha := (step_reacts S t.addr ⟨o.sess, s.tab, env, []⟩
        (.control env ctrl replayPid)).assigns nofun
      exact .handled ht o _ _ ho rfl ha
  · rcases hs : s.sessions t.addr with _ | ref
    · exact .missing (by rw [ht]; rfl) hs
    · exact .visited ht ref hs
  · rcases ho : s.heap[ref]? with _ | o
    · exact .lost (by rw [ht]; rfl) ho
    · dsimp only
      split
      · exact .reaped ht o ho
      · exact .spared ht
  · rcases hs : s.sessions t.addr with _ | ref
    · exact .missing (by rw [ht]; rfl) hs
    · exact .closed ht ref hs
  · rcases ho : s.heap[ref]? with _ | o
    · exact .lost (by rw [ht]; rfl) ho
    · exact .torn ht o ho
  · exact .done ht
  · exact .op ht

lemma underLock_visit (s : Server Conn) (addr : SocketAddr) (ref : Ref) (env : Env Conn)
    {e : Event Conn} (he : e.isVisit = true) :
    underLock S s addr ref env e = s ∨ ∃ o o' : Object Conn, s.heap[ref]? = some o ∧
      o'.home = o.home ∧ o'.holding s.tab = o.holding s.tab ∧
      underLock S s addr ref env e = { s with heap := s.heap.set ref o' } := by
  rcases ho : s.heap[ref]? with _ | o
  · exact .inl (underLock_of_none ho e)
  · have hh := (step_reacts S addr ⟨o.sess, s.tab, env, []⟩ e).holding
      (by rintro tab rfl; cases he) (by rintro _ _ _ rfl; cases he)
    have htab : (step S addr ⟨o.sess, s.tab, env, []⟩ e).tab = s.tab := congrArg Holding.tab hh
    refine .inr ⟨o, { o with sess := (step S addr ⟨o.sess, s.tab, env, []⟩ e).sess }, rfl, rfl,
      ?_, ?_⟩
    · have hold : Object.holding ⟨o.home, (step S addr ⟨o.sess, s.tab, env, []⟩ e).sess⟩
        (step S addr ⟨o.sess, s.tab, env, []⟩ e).tab = o.holding s.tab := hh
      rwa [htab] at hold
    · rw [underLock_of_some ho, htab]

/-- What an event does to the server. -/
inductive Serves (s : Server Conn) : ServerEvent Conn → Server Conn → Prop
  | spawned {e} (addr stage) (hr : stage.isFirst = true)
      (he : e = .reap addr ∨ e = .close addr ∨
        ∃ ctrl replayPid transport, e = .control addr ctrl replayPid transport) :
      Serves s e (s.spawn addr stage)
  | idle {e} : Serves s e s
  | advanced {i env} (t s' stage) (ht : s.tasks[i]? = some (some t)) (ha : Acts s t s' stage) :
      Serves s (.advance i env)
        { s' with tasks := s.tasks.set i (stage.map (⟨t.addr, ·⟩)) }
  | touched {e} (ref o o') (ho : s.heap[ref]? = some o) (hh : o'.home = o.home)
      (hold : o'.holding s.tab = o.holding s.tab) :
      Serves s e { s with heap := s.heap.set ref o' }

lemma serves_visit {s : Server Conn} {e : ServerEvent Conn} (addr : SocketAddr) (ref : Ref)
    (env : Env Conn) {v : Event Conn} (hv : v.isVisit = true) :
    Serves s e (underLock S s addr ref env v) := by
  rcases underLock_visit (S := S) s addr ref env hv with h | ⟨o, o', ho, hh, hold, h⟩
  · rw [h]
    exact .idle
  · rw [h]
    exact .touched ref o o' ho hh hold

/-- **Every event of the server is one of these.** -/
theorem serve_serves (S : VpnServer Conn) (s : Server Conn) (e : ServerEvent Conn) :
    Serves s e (serve S s e) := by
  cases e with
  | control addr ctrl replayPid transport =>
    exact .spawned addr _ rfl (.inr (.inr ⟨ctrl, replayPid, transport, rfl⟩))
  | reap addr => exact .spawned addr _ rfl (.inl rfl)
  | close addr => exact .spawned addr _ rfl (.inr (.inl rfl))
  | advance i env =>
    simp only [serve]
    rcases ht : s.tasks[i]? with _ | _ | t
    · exact .idle
    · exact .idle
    · exact .advanced t _ _ ht (next_acts env s t)
  | forward env ipPkt =>
    simp only [serve]
    rcases s.forwardTarget ipPkt with _ | ⟨addr, ref⟩
    · exact .idle
    · exact serves_visit addr ref env rfl
  | visit addr ref env e =>
    simp only [serve]
    split
    · rename_i he
      exact serves_visit addr ref env he
    · exact .idle

/-! ### The tasks after a step -/

section Tasks

variable {s s' : Server Conn} {i : ℕ} {t : Task}

lemma getElem?_set_cases {α : Type} {l : List α} {x y : α} {j : ℕ}
    (h : (l.set i x)[j]? = some y) : (j = i ∧ x = y) ∨ (j ≠ i ∧ l[j]? = some y) := by
  rw [List.getElem?_set] at h
  split at h
  · rename_i hij
    split at h
    · exact .inl ⟨hij.symm, Option.some_inj.mp h⟩
    · cases h
  · rename_i hij
    exact .inr ⟨fun e => hij e.symm, h⟩

lemma getElem?_concat_cases {α : Type} {l : List α} {x y : α} {j : ℕ}
    (h : (l ++ [x])[j]? = some y) : (j = l.length ∧ x = y) ∨ l[j]? = some y := by
  rcases lt_or_ge j l.length with hlt | hge
  · rw [List.getElem?_append_left hlt] at h
    exact .inr h
  · rw [List.getElem?_append_right hge] at h
    have hlt := (List.getElem?_eq_some_iff.mp h).1
    refine .inl ⟨?_, (List.mem_singleton.mp (List.mem_of_getElem? h)).symm⟩
    rw [List.length_singleton] at hlt
    omega

lemma task_cases {x : Option Stage} (htasks : s'.tasks = s.tasks.set i (x.map (⟨t.addr, ·⟩)))
    {j : ℕ} {t' : Task} (hj : s'.tasks[j]? = some (some t')) :
    (j = i ∧ t'.addr = t.addr ∧ x = some t'.stage) ∨ (j ≠ i ∧ s.tasks[j]? = some (some t')) := by
  rw [htasks] at hj
  rcases getElem?_set_cases hj with ⟨hji, hxt⟩ | hj
  · obtain ⟨st, hst, rfl⟩ := Option.map_eq_some_iff.mp hxt
    exact .inl ⟨hji, rfl, hst⟩
  · exact .inr hj

lemma task_new {st : Stage} (hi : s.tasks[i]? = some (some t))
    (htasks : s'.tasks = s.tasks.set i (some ⟨t.addr, st⟩)) :
    s'.tasks[i]? = some (some ⟨t.addr, st⟩) := by
  rw [htasks, List.getElem?_set_self (List.getElem?_eq_some_iff.mp hi).1]

lemma task_other {x : Option Task} (htasks : s'.tasks = s.tasks.set i x) {j : ℕ} (hji : j ≠ i) :
    s'.tasks[j]? = s.tasks[j]? := by
  rw [htasks, List.getElem?_set_ne (Ne.symm hji)]

lemma spawn_cases {a : SocketAddr} {st : Stage} {j : ℕ} {t : Task}
    (hj : (s.spawn a st).tasks[j]? = some (some t)) :
    (j = s.tasks.length ∧ t = ⟨a, st⟩) ∨ s.tasks[j]? = some (some t) := by
  rcases getElem?_concat_cases hj with ⟨hj, ht⟩ | hj
  · exact .inl ⟨hj, (Option.some_inj.mp ht).symm⟩
  · exact .inr hj

lemma spawn_task {a : SocketAddr} {st : Stage} {j : ℕ} {t : Task}
    (hj : s.tasks[j]? = some (some t)) : (s.spawn a st).tasks[j]? = some (some t) :=
  (List.getElem?_append_left (List.getElem?_eq_some_iff.mp hj).1).trans hj

end Tasks

/-! ### A server without cryptography -/

def otherAddr : SocketAddr := ⟨.v4 0xC0000203, 40000⟩

def plainPools : Pools := ⟨0x0A08000A, 0x0A0800FA, none⟩

def clientReset : ControlPacket := clientPacket .controlHardResetClientV2 0 0 []

def clientPush : ControlPacket :=
  clientPacket .controlV1 0 1 (clientKm2 3 ++ Bytes.ascii "PUSH_REQUEST" ++ [0])

/-- A client connects; its `HARD_RESET` is the task `i`. -/
def connecting (env : Env Plain) (addr : SocketAddr) (transport : Transport) (i : ℕ) :
    List (ServerEvent Plain) :=
  .control addr clientReset none transport :: List.replicate 6 (.advance i env)

/-- A client asks for its addresses; its packet is the task `i`. -/
def requesting (addr : SocketAddr) (i : ℕ) : List (ServerEvent Plain) :=
  .control addr clientPush none (.udp addr) :: List.replicate 3 (.advance i (plainEnv 1))

def tunPacket : Bytes := 0x45 :: List.replicate 15 0 ++ [10, 8, 0, 10]

end Javs
