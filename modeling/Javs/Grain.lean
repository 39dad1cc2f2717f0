import Javs.Server

/-!
The server at a finer grain.

In `serve`, what a handler does under the lock of a session is one step. The lock does not guard
what the sessions share. A handler that answers a `PUSH_REQUEST` goes to the pools and to the
routes several times, and other sessions are handled meanwhile; `forward_tun_to_client` reads two
maps before it locks; `decrypt_and_forward` hands over the plaintext when it has released the
lock. Here each of these is a step of its own, and what is still to be done is an errand. Who
holds a lock across steps keeps the other tasks waiting: their steps change nothing.
-/

namespace Javs

open Lib Proc M

variable {Conn : Type} (S : VpnServer Conn)

/-! ### A `PUSH_REQUEST` in steps -/

/-- The length of the next message, if it is a `PUSH_REQUEST` that is to be answered. -/
def Session.asks (sess : Session Conn) : Option ℕ :=
  match sess.state, tryPopAscii sess.tls.plaintextIn with
  | .pushPending, .ready msg n => if msg = "PUSH_REQUEST".toList then some n else none
  | _, _ => none

/-- The loop of `drive_control_plane` up to a `PUSH_REQUEST`, and the rounds left behind it. -/
def driveToPush (addr : SocketAddr) : ℕ → M Conn (Option ℕ)
  | 0 => pure none
  | fuel + 1 => do
    let w ← get
    match w.sess.asks with
    | some n =>
      drainPlaintext n
      pure (some fuel)
    | none => if ← driveRound S addr then driveToPush addr fuel else pure none

/-- What a packet for the main track does before the loop. -/
def feedMain (ctrl : ControlPacket) : M Conn Unit := do
  let w ← get
  let (tls, fed) := w.sess.tls.feed S.rustls ctrl.payload
  put { w with sess := { w.sess with tls }, log := w.log ++ [.feed .main ctrl] }
  context "tls feed" fed
  if w.sess.state = .handshaking ∧ !tls.isHandshaking S.rustls then
    modify fun w => { w with sess := w.sess.finalizeKeys S.rustls,
                             log := w.log ++ [.handshaken .main] }

def handleMainToPush (addr : SocketAddr) (ctrl : ControlPacket) : M Conn (Option ℕ) := do
  feedMain S ctrl
  let w ← get
  match ← driveToPush S addr (w.sess.tls.plaintextIn.length + 1) with
  | some left => pure (some left)
  | none =>
    flushOutgoing S
    pure none

/-- `handleLocked` up to a `PUSH_REQUEST`, if it comes to one. -/
def handleToPush (addr : SocketAddr) (ctrl : ControlPacket) (replayPid : Option UInt32) :
    M Conn (Option ℕ) := do
  acceptControl ctrl replayPid
  let w ← get
  if ctrl.op = .controlV1 ∧ isRekey w.sess ctrl = false then handleMainToPush S addr ctrl
  else
    dispatch S addr ctrl
    pure none

/-- How far the answer to a `PUSH_REQUEST` has come. -/
inductive PushStage
  | asked
  /-- The address was found free, or drawn from the pool. -/
  | chosen (ip : Ipv4Addr)
  | routed (ip : Ipv4Addr)
  | drawn (ip : Ipv4Addr) (ip6 : Option Ipv6Addr)

def routeIp (addr : SocketAddr) (ip : Ipv4Addr) : M Conn Unit :=
  modify fun w => { w with sess := { w.sess with assignedIp := some (.v4 ip) },
                           tab := { w.tab with
                             routes := Function.update w.tab.routes ip (some addr) },
                           log := w.log ++ [.assigned ip] }

def routeIpV6 (addr : SocketAddr) : Option Ipv6Addr → M Conn Unit
  | none => pure ()
  | some ip => modify fun w => { w with sess := { w.sess with assignedIpV6 := some ip },
                                        tab := { w.tab with
                                          routesV6 := Function.update w.tab.routesV6 ip
                                            (some addr) },
                                        log := w.log ++ [.assignedV6 ip] }

def replyPush (ip : Ipv4Addr) (ip6 : Option Ipv6Addr) : M Conn Unit := do
  let w ← get
  let cc := S.cfg.clientConfig w.sess.clientCn
  let extraRoutes := (cc.map ClientConfig.pushRoutes).getD []
  sendPlaintext S (buildPushReply S.cfg ip ip6 w.sess.peerId extraRoutes)
  modifySess fun s => { s with state := .established }

/-- The next step of the answer; behind the last one the handler goes on to its end. -/
def PushStage.next (addr : SocketAddr) (left : ℕ) : PushStage → M Conn (Option PushStage)
  | .asked => do
    let w ← get
    let ip ← chooseIp S (S.cfg.clientConfig w.sess.clientCn)
    pure (some (.chosen ip))
  | .chosen ip => do
    routeIp addr ip
    pure (some (.routed ip))
  | .routed ip => do
    let ip6 ← allocateIpV6 S
    pure (some (.drawn ip ip6))
  | .drawn ip ip6 => do
    routeIpV6 addr ip6
    replyPush S ip ip6
    driveLoop S addr left
    flushOutgoing S
    pure none

/-- The steps of the answer that are still to come, at most `n` of them, in one go. -/
def PushStage.answer (addr : SocketAddr) (left : ℕ) : ℕ → PushStage → M Conn Unit
  | 0, _ => pure ()
  | n + 1, st => do
    match ← st.next S addr left with
    | some st' => PushStage.answer addr left n st'
    | none => pure ()

def PushStage.toGo : PushStage → ℕ
  | .asked => 4
  | .chosen _ => 3
  | .routed _ => 2
  | .drawn .. => 1

section Answer

variable {S} {addr : SocketAddr} {w : World Conn}

lemma Session.asks_eq {sess : Session Conn} {n : ℕ} (h : sess.asks = some n) :
    sess.state = .pushPending ∧
      tryPopAscii sess.tls.plaintextIn = .ready "PUSH_REQUEST".toList n := by
  unfold Session.asks at h
  split at h
  · rename_i msg k hst hpop
    split at h
    · rename_i hmsg
      obtain rfl := Option.some.inj h
      exact ⟨hst, hmsg ▸ hpop⟩
    · cases h
  · cases h

lemma driveRound_asks {n : ℕ} (h : w.sess.asks = some n) :
    driveRound S addr w = (do drainPlaintext n; handlePushRequest S addr; pure true) w := by
  obtain ⟨hst, hpop⟩ := Session.asks_eq h
  unfold driveRound
  rw [get_bind]
  simp only [hst, hpop, if_true]

/-- What the loop does behind a `PUSH_REQUEST`, if it came to one. -/
def driveOn (S : VpnServer Conn) (addr : SocketAddr) : Option ℕ → M Conn Unit
  | none => pure ()
  | some left => do
    handlePushRequest S addr
    driveLoop S addr left

lemma driveLoop_eq (fuel : ℕ) :
    driveLoop S addr fuel = driveToPush S addr fuel >>= driveOn S addr := by
  induction fuel with
  | zero => rfl
  | succ fuel ih =>
    funext w
    have hloop : driveLoop S addr (fuel + 1) w = (driveRound S addr >>= fun goOn =>
        if goOn then driveLoop S addr fuel else pure ()) w := rfl
    -- the two loops run alike until one finds a `PUSH_REQUEST`, which the other handles in place
    rcases hasks : w.sess.asks with _ | n
    · have hto : driveToPush S addr (fuel + 1) w = (driveRound S addr >>= fun goOn =>
          if goOn then driveToPush S addr fuel else pure none) w := by
        rw [driveToPush, get_bind, hasks]
      rw [hloop, bind_apply (driveToPush S addr (fuel + 1)), hto]
      rcases hround : driveRound S addr w with ⟨e | _ | _, t⟩
      · rw [bind_error hround, bind_error hround]
      · rw [bind_ok hround, bind_ok hround]
        rfl
      · rw [bind_ok hround, bind_ok hround, if_pos rfl, if_pos rfl, ih]
        rfl
    -- the message is consumed before it is answered, in both
    · have hto : driveToPush S addr (fuel + 1) w =
          (do drainPlaintext n; pure (some fuel) : M Conn (Option ℕ)) w := by
        rw [driveToPush, get_bind, hasks]
      rw [hloop, bind_apply (driveRound S addr), driveRound_asks hasks,
        bind_apply (driveToPush S addr (fuel + 1)), hto]
      rcases hdrain : drainPlaintext n w with ⟨e | _, t⟩
      · rw [bind_error hdrain, bind_error hdrain]
      · rw [bind_ok hdrain, bind_ok hdrain, bind_apply (handlePushRequest S addr)]
        show _ = (handlePushRequest S addr >>= fun _ => driveLoop S addr fuel) t
        rw [bind_apply (handlePushRequest S addr)]
        rcases handlePushRequest S addr t with ⟨e | _, u⟩ <;> rfl

lemma handleMainControl_eq (ctrl : ControlPacket) : handleMainControl S addr ctrl = (do
    feedMain S ctrl
    driveControlPlane S addr
    flushOutgoing S) := by
  unfold handleMainControl feedMain
  simp only [bind_bind]
  refine congrArg _ (funext fun w => congrArg _ (funext fun _ => congrArg _ (funext fun _ => ?_)))
  split <;> rfl

/-- What a handler does behind a `PUSH_REQUEST`, if it came to one. -/
def handleOn (S : VpnServer Conn) (addr : SocketAddr) : Option ℕ → M Conn Unit
  | none => pure ()
  | some left => do
    handlePushRequest S addr
    driveLoop S addr left
    flushOutgoing S

lemma handleMainControl_toPush (ctrl : ControlPacket) :
    handleMainControl S addr ctrl = handleMainToPush S addr ctrl >>= handleOn S addr := by
  rw [handleMainControl_eq, handleMainToPush, bind_bind]
  refine bind_congr fun _ => ?_
  rw [driveControlPlane, bind_bind, bind_bind]
  refine bind_congr fun w => ?_
  rw [driveLoop_eq, bind_bind, bind_bind]
  refine bind_congr fun r => ?_
  rcases r with _ | left
  · show flushOutgoing S = (flushOutgoing S >>= fun _ => pure none) >>= handleOn S addr
    rw [bind_bind]
    exact (Proc.bind_pure _).symm
  · exact bind_bind ..

lemma handleLocked_toPush (ctrl : ControlPacket) (replayPid : Option UInt32) :
    handleLocked S addr ctrl replayPid =
      handleToPush S addr ctrl replayPid >>= handleOn S addr := by
  unfold handleLocked handleToPush
  rw [bind_bind]
  refine bind_congr fun _ => ?_
  rw [bind_bind]
  funext w
  rw [get_bind]
  by_cases hmain : ctrl.op = .controlV1 ∧ isRekey w.sess ctrl = false
  · rw [if_pos hmain, ← handleMainControl_toPush, dispatch, hmain.1]
    dsimp only
    rw [get_bind, hmain.2, if_neg Bool.false_ne_true]
  · rw [if_neg hmain, bind_bind]
    exact congrFun (Proc.bind_pure _).symm w

lemma assignIp_eq (cc : Option ClientConfig) : assignIp S addr cc = (do
    let ip ← chooseIp S cc
    routeIp addr ip
    pure ip) := rfl

lemma assignIpV6_eq : assignIpV6 S addr = (do
    let ip6 ← allocateIpV6 S
    routeIpV6 addr ip6
    pure ip6) :=
  bind_congr fun ip6 => by cases ip6 <;> rfl

/-- What the answer to a `PUSH_REQUEST` is made of, beside the addresses. -/
def World.asker (w : World Conn) : Option Text × UInt32 := (w.sess.clientCn, w.sess.peerId)

lemma asker_chooseIp (cc : Option ClientConfig) : Keeps World.asker (chooseIp S cc) := by
  intro w
  rcases chooseIp_cases (S := S) cc w with ⟨e, h⟩ | ⟨ip, -, h⟩ | ⟨-, h⟩ <;>
    simp only [KeepsAt, h, World.asker]

lemma asker_allocateIpV6 : Keeps World.asker (allocateIpV6 S) := by
  intro w
  rcases allocateIpV6_cases (S := S) w with ⟨e, h⟩ | h | ⟨ip, e, -, -, -, h⟩ <;>
    simp only [KeepsAt, h, World.asker]

lemma answer_asked (left : ℕ) :
    PushStage.asked.answer S addr left 4 = handleOn S addr (some left) := by
  funext w
  simp only [PushStage.answer, PushStage.next, handleOn, handlePushRequest, assignIp_eq,
    assignIpV6_eq, bind_bind, get_bind, pure_bind]
  refine (asker_chooseIp _).bind_congr fun ip w₁ h₁ => ?_
  have hrouteIp : Keeps World.asker (routeIp addr ip : M Conn Unit) := keeps_modify fun _ => rfl
  refine hrouteIp.bind_congr fun _ w₂ h₂ => ?_
  refine asker_allocateIpV6.bind_congr fun ip6 w₃ h₃ => ?_
  have hroute : Keeps World.asker (routeIpV6 addr ip6 : M Conn Unit) := by
    cases ip6
    · exact keeps_pure ()
    · exact keeps_modify fun _ => rfl
  refine hroute.bind_congr fun _ w₄ h₄ => ?_
  -- no step of the answer touches the name and the peer id the reply is built from
  have hasker : w₄.asker = w.asker := h₄.trans (h₃.trans (h₂.trans h₁))
  rw [replyPush]
  simp only [bind_bind, get_bind, show w₄.sess.clientCn = w.sess.clientCn from
    congrArg Prod.fst hasker, show w₄.sess.peerId = w.sess.peerId from congrArg Prod.snd hasker]
  have hflush : (do flushOutgoing S; pure ()) = flushOutgoing S := Proc.bind_pure _
  rw [hflush]

/-! What a handler can come to before a `PUSH_REQUEST`. -/

variable {ctrl : ControlPacket} {replayPid : Option UInt32}

lemma handleToPush_main (hop : ctrl.op = .controlV1) (hr : isRekey w.sess ctrl = false) :
    (∃ e v, handleToPush S addr ctrl replayPid w = (.error e, v) ∧ v.abs = w.abs) ∨
    ∃ v, v.abs = w.abs.hear ctrl ∧
      handleToPush S addr ctrl replayPid w = handleMainToPush S addr ctrl v := by
  unfold handleToPush
  rcases hacc : accepts w replayPid with _ | _
  · obtain ⟨e, v, hv, habs⟩ := acceptControl_rejected ctrl hacc
    exact .inl ⟨e, v, bind_error hv, habs⟩
  · obtain ⟨v, hv, habs, -, hrk, -⟩ := acceptControl_accepted ctrl hacc
    refine .inr ⟨v, habs, ?_⟩
    rw [bind_ok hv, get_bind, if_pos ⟨hop, (isRekey_congr hrk ctrl).trans hr⟩]

lemma handleToPush_aside (h : ¬ (ctrl.op = .controlV1 ∧ isRekey w.sess ctrl = false)) :
    (handleToPush S addr ctrl replayPid w).2 = (handleLocked S addr ctrl replayPid w).2 ∧
      ∀ left, (handleToPush S addr ctrl replayPid w).1 ≠ .ok (some left) := by
  unfold handleToPush handleLocked
  rcases hacc : accepts w replayPid with _ | _
  · obtain ⟨e, v, hv, -⟩ := acceptControl_rejected ctrl hacc
    rw [bind_error hv, bind_error hv]
    exact ⟨rfl, nofun⟩
  · obtain ⟨v, hv, -, -, hrk, -⟩ := acceptControl_accepted ctrl hacc
    rw [bind_ok hv, bind_ok hv, get_bind, if_neg (by rwa [isRekey_congr hrk]), bind_apply]
    rcases dispatch S addr ctrl v with ⟨e | _, u⟩ <;> exact ⟨rfl, nofun⟩

/-! What each step of the answer can come to. -/

variable {left : ℕ}

lemma next_asked (S : VpnServer Conn) (addr : SocketAddr) (left : ℕ) (w : World Conn) :
    (∃ e, PushStage.asked.next S addr left w = (.error e, w)) ∨
    (∃ ip, w.tab.routes ip = none ∧
      PushStage.asked.next S addr left w = (.ok (some (.chosen ip)), w)) ∨
    PushStage.asked.next S addr left w = (.ok (some (.chosen w.tab.nextPoolIp)),
      { w with tab := { w.tab with nextPoolIp := w.tab.nextPoolIp + 1 } }) := by
  have hnext : PushStage.asked.next S addr left w =
      (chooseIp S (S.cfg.clientConfig w.sess.clientCn) >>=
        fun ip => pure (some (.chosen ip))) w := rfl
  rcases chooseIp_cases (S := S) (S.cfg.clientConfig w.sess.clientCn) w with
    ⟨e, h⟩ | ⟨ip, hfree, h⟩ | ⟨-, h⟩
  · exact .inl ⟨e, hnext.trans (bind_error h)⟩
  · exact .inr (.inl ⟨ip, hfree, hnext.trans (bind_ok h)⟩)
  · exact .inr (.inr (hnext.trans (bind_ok h)))

lemma next_routed (S : VpnServer Conn) (addr : SocketAddr) (left : ℕ) (ip : Ipv4Addr)
    (w : World Conn) :
    (∃ e, (PushStage.routed ip).next S addr left w = (.error e, w)) ∨
    (PushStage.routed ip).next S addr left w = (.ok (some (.drawn ip none)), w) ∨
    ∃ ip6, w.tab.nextPoolIpV6 = some ip6 ∧
      (PushStage.routed ip).next S addr left w = (.ok (some (.drawn ip (some ip6))),
        { w with tab := { w.tab with nextPoolIpV6 := some (ip6 + 1) } }) := by
  have hnext : (PushStage.routed ip).next S addr left w =
      (allocateIpV6 S >>= fun ip6 => pure (some (.drawn ip ip6))) w := rfl
  rcases allocateIpV6_cases (S := S) w with ⟨e, h⟩ | h | ⟨ip6, -, hcur, -, -, h⟩
  · exact .inl ⟨e, hnext.trans (bind_error h)⟩
  · exact .inr (.inl (hnext.trans (bind_ok h)))
  · exact .inr (.inr ⟨ip6, hcur, hnext.trans (bind_ok h)⟩)

lemma next_drawn (ip : Ipv4Addr) (ip6 : Option Ipv6Addr) (w : World Conn) (st : PushStage) :
    ((PushStage.drawn ip ip6).next S addr left w).1 ≠ .ok (some st) := by
  have hends : Ends (fun _ => True) ((PushStage.drawn ip ip6).next S addr left)
      (fun r _ => r = none) fun _ => True :=
    ends_bind (M := fun _ _ => True) (ends_of_after fun _ _ => trivial) fun _ =>
      ends_bind (M := fun _ _ => True) (ends_of_after fun _ _ => trivial) fun _ =>
        ends_bind (M := fun _ _ => True) (ends_of_after fun _ _ => trivial) fun _ =>
          ends_bind (M := fun _ _ => True) (ends_of_after fun _ _ => trivial) fun _ =>
            ends_pure fun _ _ => rfl
  have h := hends w trivial
  intro hok
  rcases hr : (PushStage.drawn ip ip6).next S addr left w with ⟨r, w'⟩
  rw [hr] at h hok
  cases hok
  cases h

lemma toGo_next {st st' : PushStage} {w' : World Conn}
    (h : st.next S addr left w = (.ok (some st'), w')) : st.toGo = st'.toGo + 1 := by
  cases st with
  | asked =>
    rcases next_asked S addr left w with
      ⟨e, h'⟩ | ⟨ip, -, h'⟩ | h' <;> rw [h'] at h <;> cases h <;> rfl
  | chosen ip =>
    cases h
    rfl
  | routed ip =>
    rcases next_routed S addr left ip w with
      ⟨e, h'⟩ | h' | ⟨ip6, -, h'⟩ <;> rw [h'] at h <;> cases h <;> rfl
  | drawn ip ip6 => exact absurd (congrArg Prod.fst h) (next_drawn ip ip6 w st')

end Answer

/-! ### Errands -/

inductive Errand (Conn : Type)
  /-- The handler which is the task `i` is answering a `PUSH_REQUEST`, and holds the lock of the
  session. Its environment and its log are those of the handler. -/
  | push (i : ℕ) (addr : SocketAddr) (ref : Ref) (env : Env Conn) (log : List Effect) (left : ℕ)
      (stage : PushStage)
  /-- A packet from the TUN has been routed to an address. -/
  | routed (addr : SocketAddr) (ipPkt : Bytes)
  /-- The session at this address has been looked up for it. -/
  | found (addr : SocketAddr) (ref : Ref) (ipPkt : Bytes)
  /-- A data packet has been opened, and the lock released. -/
  | opened (ref : Ref) (pkt plaintext : Bytes)

/-- The session whose lock is held meanwhile. -/
def Errand.holds : Errand Conn → Option Ref
  | .push _ _ ref .. => some ref
  | _ => none

structure FineServer (Conn : Type) extends Server Conn where
  errands : List (Option (Errand Conn)) := []

namespace FineServer

def new (p : Pools) : FineServer Conn := ⟨Server.new p, []⟩

def held (f : FineServer Conn) (ref : Ref) : Bool :=
  f.errands.any fun er => er.any fun er => er.holds = some ref

def start (f : FineServer Conn) (er : Errand Conn) : FineServer Conn :=
  { f with errands := f.errands ++ [some er] }

def update (f : FineServer Conn) (k : ℕ) (er : Option (Errand Conn)) : FineServer Conn :=
  { f with errands := f.errands.set k er }

def finish (f : FineServer Conn) (i : ℕ) : FineServer Conn :=
  { f with tasks := f.tasks.set i none }

def keep (f : FineServer Conn) (ref : Ref) (o : Object Conn) (w : World Conn) : FineServer Conn :=
  { f with heap := f.heap.set ref { o with sess := w.sess }, tab := w.tab }

/-- A control packet is handled by the task `i`, up to a `PUSH_REQUEST`. -/
def handle (f : FineServer Conn) (i : ℕ) (addr : SocketAddr) (ref : Ref) (env : Env Conn)
    (ctrl : ControlPacket) (replayPid : Option UInt32) : FineServer Conn :=
  match f.heap[ref]? with
  | none => f.finish i
  | some o =>
    match handleToPush S addr ctrl replayPid ⟨o.sess, f.tab, env, []⟩ with
    | (.ok (some left), w) => (f.keep ref o w).start (.push i addr ref w.env w.log left .asked)
    | (_, w) => (f.keep ref o w).finish i

/-- The errand `k`, an answer to a `PUSH_REQUEST`, goes on. -/
def push (f : FineServer Conn) (k i : ℕ) (addr : SocketAddr) (ref : Ref) (env : Env Conn)
    (log : List Effect) (left : ℕ) (st : PushStage) : FineServer Conn :=
  match f.heap[ref]? with
  | none => (f.finish i).update k none
  | some o =>
    match st.next S addr left ⟨o.sess, f.tab, env, log⟩ with
    | (.ok (some st'), w) =>
      (f.keep ref o w).update k (some (.push i addr ref w.env w.log left st'))
    | (_, w) => ((f.keep ref o w).finish i).update k none

def decrypt (f : FineServer Conn) (ref : Ref) (env : Env Conn) (pkt : Bytes) : FineServer Conn :=
  match f.heap[ref]? with
  | none => f
  | some o =>
    match decryptLocked S pkt ⟨o.sess, f.tab, env, []⟩ with
    | (.ok plaintext, w) => (f.keep ref o w).start (.opened ref pkt plaintext)
    | (_, w) => f.keep ref o w

/-- An event of `serve`. -/
def coarse (f : FineServer Conn) (e : ServerEvent Conn) : FineServer Conn :=
  { f with toServer := serve S f.toServer e }

def advance (f : FineServer Conn) (i : ℕ) (env : Env Conn) : FineServer Conn :=
  match f.tasks[i]? with
  | some (some ⟨addr, .locked ref ctrl replayPid⟩) =>
    if f.held ref then f else f.handle S i addr ref env ctrl replayPid
  | some (some ⟨_, .reap ref⟩) | some (some ⟨_, .teardown ref⟩) =>
    if f.held ref then f else f.coarse S (.advance i env)
  | _ => f.coarse S (.advance i env)

/-- The errand `k` takes its next step. The plaintext that is handed over leaves the server. -/
def goOn (f : FineServer Conn) (k : ℕ) (env : Env Conn) : Errand Conn → FineServer Conn
  | .push i addr ref env log left st => f.push S k i addr ref env log left st
  | .routed addr ipPkt => f.update k ((f.sessions addr).map fun ref => .found addr ref ipPkt)
  | .found addr ref ipPkt =>
    if f.held ref then f
    else { f with toServer := underLock S f.toServer addr ref env (.tun env ipPkt) }.update k none
  | .opened .. => f.update k none

end FineServer

/-- Where a packet from the TUN is routed. -/
def Server.routeTun (s : Server Conn) (ipPkt : Bytes) : Option SocketAddr :=
  (tunDestination ipPkt).bind s.tab.route

inductive FineEvent (Conn : Type)
  /-- What has to do with packets from the TUN comes as `tun`. -/
  | server (e : ServerEvent Conn)
  /-- A packet is read from the TUN, and routed. -/
  | tun (ipPkt : Bytes)
  | goOn (k : ℕ) (env : Env Conn)

def fine (f : FineServer Conn) : FineEvent Conn → FineServer Conn
  | .server (.advance i env) => f.advance S i env
  | .server (.visit _ ref _ (.data env pkt)) => if f.held ref then f else f.decrypt S ref env pkt
  | .server (.forward ..) | .server (.visit _ _ _ (.tun ..)) => f
  | .server (.visit addr ref env e) =>
    if f.held ref then f else f.coarse S (.visit addr ref env e)
  | .server e => f.coarse S e
  | .tun ipPkt =>
    match f.routeTun ipPkt with
    | some addr => f.start (.routed addr ipPkt)
    | none => f
  | .goOn k env =>
    match f.errands[k]? with
    | some (some er) => f.goOn S k env er
    | _ => f

/-! ### Coarse runs are fine runs -/

section Coarse

variable {S} {f : FineServer Conn} {k i left : ℕ} {addr : SocketAddr} {ref : Ref} {env : Env Conn}

def FineServer.Quiet (f : FineServer Conn) : Prop := ∀ er ∈ f.errands, er = none

lemma FineServer.Quiet.held (h : f.Quiet) (ref : Ref) : f.held ref = false := by
  refine List.any_eq_false.mpr fun er her => ?_
  rw [h er her]
  simp

lemma FineServer.Quiet.update_start {er : Errand Conn} (h : f.Quiet) {f' : FineServer Conn}
    (hf : f'.errands = (f.errands ++ [some er]).set f.errands.length none) : f'.Quiet := by
  intro x hx
  rw [hf, List.set_append_right _ _ le_rfl, Nat.sub_self] at hx
  rcases List.mem_append.mp hx with hx | hx
  · exact h x hx
  · exact List.mem_singleton.mp hx

lemma FineServer.Quiet.held_found {er er' : Errand Conn} (h : f.Quiet) (f' : FineServer Conn)
    (hf : f'.errands = (f.errands ++ [some er]).set f.errands.length (some er'))
    (her : er'.holds = none) (ref : Ref) : f'.held ref = false := by
  rw [FineServer.held, hf, List.set_append_right _ _ le_rfl, Nat.sub_self, List.any_append]
  simp [show f.errands.any _ = false from h.held ref, her]

lemma run_goOn_done (h : f.errands[k]? = some none) (n : ℕ) :
    run (fine S) f (List.replicate n (.goOn k env)) = f := by
  induction n with
  | zero => rfl
  | succ n ih =>
    have hf : fine S f (.goOn k env) = f := by simp only [fine, h]
    rw [List.replicate_succ, run_cons, hf, ih]

lemma run_push (env : Env Conn) (home : SocketAddr) (n : ℕ) {f : FineServer Conn} {st : PushStage}
    {w : World Conn}
    (hk : f.errands[k]? = some (some (.push i addr ref w.env w.log left st)))
    (ho : f.heap[ref]? = some ⟨home, w.sess⟩) (htab : f.tab = w.tab) (hn : st.toGo ≤ n) :
    run (fine S) f (List.replicate n (.goOn k env)) =
      ((f.keep ref ⟨home, w.sess⟩ (st.answer S addr left n w).2).finish i).update k none := by
  induction n generalizing f st w with
  | zero => cases st <;> simp [PushStage.toGo] at hn
  | succ n ih =>
    have hlt := (List.getElem?_eq_some_iff.mp hk).1
    have hlt' := (List.getElem?_eq_some_iff.mp ho).1
    have hw : (⟨w.sess, f.tab, w.env, w.log⟩ : World Conn) = w := by rw [htab]
    have hf : fine S f (.goOn k env) = f.push S k i addr ref w.env w.log left st := by
      simp only [fine, hk, FineServer.goOn]
    have hdone (w' : World Conn) : run (fine S)
        (((f.keep ref ⟨home, w.sess⟩ w').finish i).update k none)
        (List.replicate n (.goOn k env)) =
          ((f.keep ref ⟨home, w.sess⟩ w').finish i).update k none :=
      run_goOn_done (by simp [FineServer.update, FineServer.keep, FineServer.finish, hlt]) n
    rw [List.replicate_succ, run_cons, hf, FineServer.push, ho]
    dsimp only
    rw [hw, PushStage.answer]
    rcases hst : st.next S addr left w with ⟨e | _ | st', w'⟩
    · rw [bind_error hst]
      exact hdone w'
    · rw [bind_ok hst]
      exact hdone w'
    · rw [bind_ok hst]
      -- fewer steps are left, which bounds the induction
      have hgo := toGo_next hst
      have hk' : ((f.keep ref ⟨home, w.sess⟩ w').update k
          (some (.push i addr ref w'.env w'.log left st'))).errands[k]? =
            some (some (.push i addr ref w'.env w'.log left st')) := by
        simp [FineServer.update, FineServer.keep, hlt]
      refine (ih (w := w') hk' ?_ rfl (by omega)).trans ?_
      · simp [FineServer.update, FineServer.keep, hlt']
      simp [FineServer.update, FineServer.keep, FineServer.finish]

lemma handle_of_ends {ctrl : ControlPacket} {replayPid : Option UInt32} {o : Object Conn}
    (ho : f.heap[ref]? = some o) {r : Except Err (Option ℕ)} {w : World Conn}
    (hr : handleToPush S addr ctrl replayPid ⟨o.sess, f.tab, env, []⟩ = (r, w))
    (hnone : ∀ left, r ≠ .ok (some left)) :
    f.handle S i addr ref env ctrl replayPid = (f.keep ref o w).finish i := by
  rw [FineServer.handle, ho]
  dsimp only
  rw [hr]
  rcases r with e | _ | left
  · rfl
  · rfl
  · exact absurd rfl (hnone left)

lemma handle_of_push {ctrl : ControlPacket} {replayPid : Option UInt32} {o : Object Conn}
    (ho : f.heap[ref]? = some o) {w : World Conn}
    (hr : handleToPush S addr ctrl replayPid ⟨o.sess, f.tab, env, []⟩ = (.ok (some left), w)) :
    f.handle S i addr ref env ctrl replayPid =
      (f.keep ref o w).start (.push i addr ref w.env w.log left .asked) := by
  rw [FineServer.handle, ho]
  dsimp only
  rw [hr]

lemma run_answer (env : Env Conn) {o : Object Conn} (ho : f.heap[ref]? = some o)
    (w : World Conn) :
    run (fine S) ((f.keep ref o w).start (.push i addr ref w.env w.log left .asked))
        (List.replicate 4 (.goOn f.errands.length env)) =
      (((f.keep ref o (handleOn S addr (some left) w).2).start
        (.push i addr ref w.env w.log left .asked)).finish i).update f.errands.length none := by
  have hlt := (List.getElem?_eq_some_iff.mp ho).1
  have hk : ((f.keep ref o w).start (.push i addr ref w.env w.log left .asked)).errands[
      f.errands.length]? = some (some (.push i addr ref w.env w.log left .asked)) := by
    simp [FineServer.start, FineServer.keep]
  have hrun := run_push (S := S) env o.home 4 (w := w) hk
    (by simp [FineServer.start, FineServer.keep, hlt]) rfl le_rfl
  rw [hrun, answer_asked]
  simp [FineServer.start, FineServer.update, FineServer.keep, FineServer.finish]

lemma coarse_locked (hq : f.Quiet) {ctrl : ControlPacket} {replayPid : Option UInt32}
    (hi : f.tasks[i]? = some (some ⟨addr, .locked ref ctrl replayPid⟩)) (env : Env Conn) :
    ∃ es, (run (fine S) f es).toServer = serve S f.toServer (.advance i env) ∧
      (run (fine S) f es).Quiet := by
  have hserve : serve S f.toServer (.advance i env) =
      { underLock S f.toServer addr ref env (.control env ctrl replayPid) with
        tasks := f.tasks.set i none } := by
    simp only [serve, hi, Task.next, Option.map_none]
  have hfine : fine S f (.server (.advance i env)) =
      f.handle S i addr ref env ctrl replayPid := by
    simp only [fine, FineServer.advance, hi, hq.held, Bool.false_eq_true, if_false]
  rcases ho : f.heap[ref]? with _ | o
  · refine ⟨[.server (.advance i env)], ?_, ?_⟩ <;>
      rw [run_cons, run_nil, hfine, FineServer.handle, ho]
    · rw [hserve, underLock_of_none ho]
      rfl
    · exact hq
  have hstep : step S addr ⟨o.sess, f.tab, env, []⟩ (.control env ctrl replayPid) =
      ((handleToPush S addr ctrl replayPid >>= handleOn S addr) ⟨o.sess, f.tab, env, []⟩).2 := by
    rw [← handleLocked_toPush]
    rfl
  rw [hserve, underLock_of_some ho, hstep]
  rcases hr : handleToPush S addr ctrl replayPid ⟨o.sess, f.tab, env, []⟩ with ⟨e | _ | left, w⟩
  · refine ⟨[.server (.advance i env)], ?_, ?_⟩ <;>
      rw [run_cons, run_nil, hfine, handle_of_ends ho hr (by simp)]
    · rw [bind_error hr]
      rfl
    · exact hq
  · refine ⟨[.server (.advance i env)], ?_, ?_⟩ <;>
      rw [run_cons, run_nil, hfine, handle_of_ends ho hr (by simp)]
    · rw [bind_ok hr]
      rfl
    · exact hq
  -- at a `PUSH_REQUEST` the answer goes on in four steps
  · refine ⟨.server (.advance i env) :: List.replicate 4 (.goOn f.errands.length env), ?_⟩
    rw [run_cons, hfine, handle_of_push ho hr, run_answer env ho, bind_ok hr]
    exact ⟨rfl, hq.update_start rfl⟩

lemma coarse_forward (hq : f.Quiet) (env : Env Conn) (ipPkt : Bytes) :
    ∃ es, (run (fine S) f es).toServer = serve S f.toServer (.forward env ipPkt) ∧
      (run (fine S) f es).Quiet := by
  rcases hr : f.routeTun ipPkt with _ | addr
  · have htarget : f.forwardTarget ipPkt = none := by
      unfold Server.forwardTarget
      rw [Server.routeTun] at hr
      rcases hd : tunDestination ipPkt with _ | d
      · rfl
      · rw [hd, Option.bind_some] at hr
        simp [hr]
    refine ⟨[], ?_, hq⟩
    simp only [run_nil, serve, htarget]
  have htarget : f.forwardTarget ipPkt = (f.sessions addr).map (addr, ·) := by
    obtain ⟨d, hd, ha⟩ := Option.bind_eq_some_iff.mp hr
    rcases hs : f.sessions addr with _ | ref <;> simp [Server.forwardTarget, hd, ha, hs]
  have htun : fine S f (.tun ipPkt) = f.start (.routed addr ipPkt) := by simp only [fine, hr]
  have hlook : fine S (f.start (.routed addr ipPkt)) (.goOn f.errands.length env) =
      (f.start (.routed addr ipPkt)).update f.errands.length
        ((f.sessions addr).map fun ref => .found addr ref ipPkt) := by
    simp [fine, FineServer.start, FineServer.goOn]
  -- route, session and seal are three steps; without a session the second one is the last
  rcases hs : f.sessions addr with _ | ref <;> rw [hs] at htarget hlook
  · refine ⟨[.tun ipPkt, .goOn f.errands.length env], ?_, ?_⟩ <;>
      rw [run_cons, htun, run_cons, run_nil, hlook]
    · simp only [serve, htarget]
      rfl
    · exact hq.update_start rfl
  · have hseal : fine S ((f.start (.routed addr ipPkt)).update f.errands.length
        (some (.found addr ref ipPkt))) (.goOn f.errands.length env) =
        { (f.start (.routed addr ipPkt)).update f.errands.length none with
          toServer := underLock S f.toServer addr ref env (.tun env ipPkt) } := by
      have hheld := hq.held_found ((f.start (.routed addr ipPkt)).update f.errands.length
        (some (.found addr ref ipPkt))) rfl rfl ref
      have hk : ((f.start (.routed addr ipPkt)).update f.errands.length
          (some (.found addr ref ipPkt))).errands[f.errands.length]? =
          some (some (.found addr ref ipPkt)) := by
        simp [FineServer.start, FineServer.update]
      simp only [fine, hk, FineServer.goOn, hheld, Bool.false_eq_true, if_false]
      simp [FineServer.start, FineServer.update]
    refine ⟨[.tun ipPkt, .goOn f.errands.length env, .goOn f.errands.length env], ?_, ?_⟩ <;>
      rw [run_cons, htun, run_cons, hlook, run_cons, run_nil, Option.map_some, hseal]
    · simp only [serve, htarget, Option.map_some]
    · exact hq.update_start rfl

lemma coarse_data (hq : f.Quiet) (addr : SocketAddr) (ref : Ref) (env env' : Env Conn)
    (pkt : Bytes) :
    ∃ es, (run (fine S) f es).toServer = serve S f.toServer (.visit addr ref env (.data env' pkt)) ∧
      (run (fine S) f es).Quiet := by
  have hfine : fine S f (.server (.visit addr ref env (.data env' pkt))) =
      f.decrypt S ref env' pkt := by
    simp only [fine, hq.held, Bool.false_eq_true, if_false]
  have hserve : serve S f.toServer (.visit addr ref env (.data env' pkt)) =
      underLock S f.toServer addr ref env (.data env' pkt) := rfl
  rw [hserve]
  rcases ho : f.heap[ref]? with _ | o
  · refine ⟨[.server (.visit addr ref env (.data env' pkt))], ?_, ?_⟩ <;>
      rw [run_cons, run_nil, hfine, FineServer.decrypt, ho]
    · rw [underLock_of_none ho]
    · exact hq
  rw [underLock_of_some ho]
  have hstep : step S addr ⟨o.sess, f.tab, env, []⟩ (.data env' pkt) =
      (decryptAndForward S pkt ⟨o.sess, f.tab, env', []⟩).2 := rfl
  rcases decryptLocked_cases (S := S) ⟨o.sess, f.tab, env', []⟩ pkt with
    ⟨e, he⟩ | ⟨dp, i, slot, plaintext, hopens, hok⟩
  · refine ⟨[.server (.visit addr ref env (.data env' pkt))], ?_, ?_⟩ <;>
      rw [run_cons, run_nil, hfine, FineServer.decrypt, ho]
    · rw [hstep, decryptAndForward, bind_error he]
      dsimp only
      rw [he]
      rfl
    · dsimp only
      rw [he]
      exact hq
  · refine ⟨[.server (.visit addr ref env (.data env' pkt)), .goOn f.errands.length env], ?_⟩
    have hopened : fine S f (.server (.visit addr ref env (.data env' pkt))) =
        (f.keep ref o (World.opened ⟨o.sess, f.tab, env', []⟩ pkt dp i slot)).start
          (.opened ref pkt plaintext) := by
      rw [hfine, FineServer.decrypt, ho]
      dsimp only
      rw [hok]
    have hover : fine S ((f.keep ref o (World.opened ⟨o.sess, f.tab, env', []⟩ pkt dp i slot)).start
        (.opened ref pkt plaintext)) (.goOn f.errands.length env) =
        ((f.keep ref o (World.opened ⟨o.sess, f.tab, env', []⟩ pkt dp i slot)).start
          (.opened ref pkt plaintext)).update f.errands.length none := by
      simp [fine, FineServer.start, FineServer.keep, FineServer.goOn]
    rw [run_cons, hopened, run_cons, run_nil, hover]
    refine ⟨?_, hq.update_start rfl⟩
    rw [hstep, decryptAndForward_opens hopens]
    -- handing the plaintext over leaves the session and the tables as they are
    split
    · rfl
    · split <;> rfl

/-- A packet from the TUN that has not been routed. -/
def ServerEvent.isUnrouted : ServerEvent Conn → Bool
  | .visit _ _ _ (.tun ..) => true
  | _ => false

/-- **An event of the coarse server** can be taken in the steps of the fine one. -/
theorem coarse_step (S : VpnServer Conn) (hq : f.Quiet) (e : ServerEvent Conn)
    (he : e.isUnrouted = false) :
    ∃ es, (run (fine S) f es).toServer = serve S f.toServer e ∧ (run (fine S) f es).Quiet := by
  have hone (hf : fine S f (.server e) = f.coarse S e) :
      ∃ es, (run (fine S) f es).toServer = serve S f.toServer e ∧
        (run (fine S) f es).Quiet := by
    refine ⟨[.server e], ?_, ?_⟩ <;> rw [run_cons, run_nil, hf]
    · rfl
    · exact hq
  cases e with
  | control | reap | close => exact hone rfl
  | forward env ipPkt => exact coarse_forward hq env ipPkt
  | visit addr ref env v =>
    cases v with
    | data env' pkt => exact coarse_data hq addr ref env env' pkt
    | tun => cases he
    | _ => exact hone (by simp only [fine, hq.held, Bool.false_eq_true, if_false])
  | advance i env =>
    by_cases hl : ∃ addr ref ctrl replayPid,
        f.tasks[i]? = some (some ⟨addr, .locked ref ctrl replayPid⟩)
    · obtain ⟨addr, ref, ctrl, replayPid, hi⟩ := hl
      exact coarse_locked hq hi env
    · refine hone ?_
      simp only [fine, FineServer.advance]
      split
      · rename_i hi
        exact absurd ⟨_, _, _, _, hi⟩ hl
      · simp [hq.held]
      · simp [hq.held]
      · rfl

/-- **Coarse runs are fine runs.** Whatever state the server reaches when nothing interrupts a
handler, it reaches at the finer grain too. -/
theorem coarse_run (S : VpnServer Conn) (p : Pools) (es : List (ServerEvent Conn))
    (hes : ∀ e ∈ es, e.isUnrouted = false) :
    ∃ es', (run (fine S) (FineServer.new p) es').toServer = run (serve S) (Server.new p) es := by
  suffices h : ∃ es', (run (fine S) (FineServer.new p) es').toServer =
      run (serve S) (Server.new p) es ∧ (run (fine S) (FineServer.new p) es').Quiet from
    h.imp fun _ h => h.1
  induction es using List.reverseRecOn with
  | nil => exact ⟨[], rfl, fun _ her => absurd her List.not_mem_nil⟩
  | append_singleton es e ih =>
    obtain ⟨es₁, hs, hq⟩ := ih fun x hx => hes x (List.mem_append_left _ hx)
    obtain ⟨es₂, hs', hq'⟩ := coarse_step S hq e (hes e (by simp))
    refine ⟨es₁ ++ es₂, ?_, ?_⟩ <;> rw [run_append]
    · rw [hs', hs, run_append]
      rfl
    · exact hq'

end Coarse

end Javs
