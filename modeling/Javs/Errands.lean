import Javs.Grain
import Javs.Lifecycle
import Javs.Tenancy

/-!
What a step of the server does at the finer grain.

Up to a `PUSH_REQUEST`, and behind the answer to it, a handler leaves the addresses of its session
and the routes alone. The answer itself changes them in its second and in its last step. From this
every event is one of a few, as in `Serves`.
-/

namespace Javs

open Lib Lib.Proc Relation M

variable {Conn : Type}

/-! ### What the parts of a handler leave alone -/

/-- What the tables say of the session a handler works on, whatever its state. -/
def World.assets (w : World Conn) : Option IpAddr × Option Ipv6Addr × UInt32 × Tables :=
  (w.sess.assignedIp, w.sess.assignedIpV6, w.sess.peerId, w.tab)

section Assets

variable {S : VpnServer Conn} {addr : SocketAddr} {w w' : World Conn}

lemma assets_of_holding (h : w'.abs.holding = w.abs.holding) : w'.assets = w.assets := by
  have hip : w'.sess.assignedIp = w.sess.assignedIp := congrArg Holding.ip h
  have hip6 : w'.sess.assignedIpV6 = w.sess.assignedIpV6 := congrArg Holding.ip6 h
  have hpid : w'.sess.peerId = w.sess.peerId := congrArg Holding.peerId h
  have htab : w'.tab = w.tab := congrArg Holding.tab h
  rw [World.assets, hip, hip6, hpid, htab, World.assets]

lemma assets_drainPlaintext (k : ℕ) : Keeps World.assets (drainPlaintext k : M Conn Unit) := by
  intro w
  have h := ends_drainPlaintext (w := w) k w rfl
  rw [KeepsAt]
  rcases hr : drainPlaintext k w with ⟨e | _, u⟩ <;> rw [hr] at h
  · rw [show u = w from h]
  · obtain ⟨tls, hu⟩ := h
    rw [hu]
    rfl

lemma assets_sendPlaintext (data : Bytes) : Keeps World.assets (sendPlaintext S data) := by
  refine keeps_get_bind fun w => keepsAt_bind (keepsAt_set rfl) fun _ => ?_
  split
  · exact keeps_pure ()
  · exact keeps_throw _

lemma assets_flushOutgoing : Keeps World.assets (flushOutgoing S) := by
  intro w
  have hm : ReflTransGen (Move S ⟨.v4 0, 0⟩ 0 .flush) w.abs (flushOutgoing S w).2.abs :=
    steps_of_meets (meets_flushOutgoing (c := w.abs.core) (.inr rfl)) rfl rfl
  exact assets_of_holding (holding_moves hm nofun)

lemma assets_handleKeyMethod2 (km : ClientKeyMethod2) :
    Keeps World.assets (handleKeyMethod2 S km) := by
  refine keeps_bind (keeps_modify fun _ => rfl) fun _ => keeps_bind ?_ fun _ => ?_
  · refine keeps_get_bind fun w => ?_
    rcases w.sess.prfSlot S.prims 0 with e | slot
    · exact keeps_throw e w
    · exact keepsAt_set rfl
  · refine keeps_get_bind fun w => keepsAt_bind (assets_sendPlaintext _ w) fun _ => ?_
    exact keeps_modify fun _ => rfl

lemma assets_driveRound (h : w.sess.asks = none) : KeepsAt World.assets (driveRound S addr) w := by
  refine keepsAt_get_bind ?_
  rcases hst : w.sess.state <;> dsimp only
  case keyExchange =>
    refine keepsAt_bind (keeps_ofExcept _ w) fun pop => ?_
    rcases pop with ⟨km, n⟩ | _
    · exact keeps_bind (assets_drainPlaintext n) fun _ =>
        keeps_bind (assets_handleKeyMethod2 km) fun _ => keeps_pure _
    · exact keeps_pure _
  case pushPending =>
    rcases hpop : tryPopAscii w.sess.tls.plaintextIn with ⟨msg, n⟩ | _
    -- a request would have been found by `asks`, where the loop stops before it is answered
    · have hmsg : msg ≠ "PUSH_REQUEST".toList := fun hmsg => by
        simp [Session.asks, hst, hpop, hmsg] at h
      refine keepsAt_bind (assets_drainPlaintext n w) fun _ => ?_
      rw [if_neg hmsg]
      exact keeps_pure _
    · exact keeps_pure _ w
  case established =>
    rcases tryPopAscii w.sess.tls.plaintextIn with ⟨msg, n⟩ | _
    · refine keepsAt_bind (assets_drainPlaintext n w) fun _ => ?_
      split
      · exact keeps_bind (keeps_modify fun _ => rfl) fun _ => keeps_pure _
      · exact keeps_pure _
    · exact keeps_pure _ w
  all_goals exact keeps_pure _ w

lemma assets_driveToPush (fuel : ℕ) : Keeps World.assets (driveToPush S addr fuel) := by
  induction fuel with
  | zero => exact keeps_pure _
  | succ fuel ih =>
    refine keeps_get_bind fun w => ?_
    rcases hasks : w.sess.asks with _ | n
    · refine keepsAt_bind (assets_driveRound hasks) fun goOn => ?_
      cases goOn
      · exact keeps_pure _
      · exact ih
    · exact keepsAt_bind (assets_drainPlaintext n w) fun _ => keeps_pure _

lemma assets_context {α : Type} (msg : String) (x : Res α) :
    Keeps World.assets (context msg x : M Conn α) := by
  unfold context
  split
  · exact keeps_throw _
  · exact keeps_ofExcept _

lemma assets_feedMain (ctrl : ControlPacket) : Keeps World.assets (feedMain S ctrl) := by
  refine keeps_get_bind fun w => ?_
  rcases w.sess.tls.feed S.rustls ctrl.payload with ⟨tls, fed⟩
  refine keepsAt_bind (keepsAt_set rfl) fun _ => keeps_bind (assets_context _ _) fun _ => ?_
  refine Proc.keeps_ite (keeps_modify fun u => ?_) (keeps_pure _)
  unfold Session.finalizeKeys
  split <;> rfl

lemma assets_handleMainToPush (ctrl : ControlPacket) :
    Keeps World.assets (handleMainToPush S addr ctrl) := by
  refine keeps_bind (assets_feedMain ctrl) fun _ => keeps_get_bind fun w => ?_
  refine keepsAt_bind (assets_driveToPush _ w) fun r => ?_
  cases r
  · exact keeps_bind assets_flushOutgoing fun _ => keeps_pure _
  · exact keeps_pure _

lemma assets_handleToPush (S : VpnServer Conn) (addr : SocketAddr) (ctrl : ControlPacket)
    (replayPid : Option UInt32) :
    Keeps World.assets (handleToPush S addr ctrl replayPid) := by
  intro w
  rw [KeepsAt]
  by_cases hmain : ctrl.op = .controlV1 ∧ isRekey w.sess ctrl = false
  · rcases handleToPush_main (S := S) hmain.1 hmain.2 with
      ⟨e, v, hv, habs⟩ | ⟨v, habs, hv⟩
    · rw [hv]
      exact assets_of_holding (congrArg Abs.holding habs)
    · rw [hv]
      refine (assets_handleMainToPush ctrl v).trans (assets_of_holding ?_)
      exact (congrArg Abs.holding habs).trans (holding_hear _ _)
  · have hstep : (handleLocked S addr ctrl replayPid w).2 =
        step S addr w (.control w.env ctrl replayPid) := rfl
    rw [(handleToPush_aside hmain).1, hstep]
    refine assets_of_holding (((step_reacts S addr w _).holding_or_main
      fun _ he => by cases he).resolve_right ?_)
    rintro ⟨env, ctrl', replayPid', he, -, hop, hr, -⟩
    cases he
    exact hmain ⟨hop, hr⟩

lemma assets_driveLoop {left : ℕ} (h : w.sess.state.early = false) :
    KeepsAt World.assets (driveLoop S addr left) w := by
  have hm : ReflTransGen (Move S addr w.log.length .main) w.abs (driveLoop S addr left w).2.abs :=
    steps_of_meets (meets_driveLoop left) (round_now w) rfl
  have hstart : PushingSince addr w.log.length w.abs.holding w.abs :=
    ⟨le_rfl, by simpa [assignedSince, assignedV6Since, World.abs] using Pushing.refl addr _⟩
  obtain ⟨-, hp⟩ := hstart.moves hm
  have hnot : w.abs.holding.state.early ≠ true := by
    rw [show w.abs.holding.state.early = false from h]
    exact Bool.false_ne_true
  obtain ⟨hip, hroutes, hnext⟩ := hp.none4 (Bool.eq_false_iff.mpr fun h4 => hnot (hp.some4 h4).1)
  obtain ⟨hip6, hroutes6, hnext6⟩ :=
    hp.none6 (Bool.eq_false_iff.mpr fun h6 => hnot (hp.some6 h6).1)
  exact Prod.ext hip (Prod.ext hip6 (Prod.ext hp.peerId (Tables.ext hroutes hroutes6 hnext hnext6)))

end Assets

/-! ### The steps of an answer -/

/-- The session has the addresses it had, and they are routed as they were. -/
structure Steady (h h' : Holding) : Prop where
  ip : h'.ip = h.ip
  ip6 : h'.ip6 = h.ip6
  peerId : h'.peerId = h.peerId
  routes : h'.tab.routes = h.tab.routes
  routesV6 : h'.tab.routesV6 = h.tab.routesV6

/-- What a step of the answer to a `PUSH_REQUEST` does to the session and the tables. -/
inductive Pushed (addr : SocketAddr) (h h' : Holding) : PushStage → Option PushStage → Prop
  | failed (st) (hs : Steady h h') : Pushed addr h h' st none
  | chosen (ip) (hs : Steady h h') : Pushed addr h h' .asked (some (.chosen ip))
  | routed (ip) (hp : h'.peerId = h.peerId) (hip : h'.ip = some (.v4 ip))
      (hr : h'.tab.routes = Function.update h.tab.routes ip (some addr)) (hip6 : h'.ip6 = h.ip6)
      (hr6 : h'.tab.routesV6 = h.tab.routesV6) : Pushed addr h h' (.chosen ip) (some (.routed ip))
  | drawn (ip ip6) (hs : Steady h h') : Pushed addr h h' (.routed ip) (some (.drawn ip ip6))
  | ended (ip ip6) (hp : h'.peerId = h.peerId) (hip : h'.ip = h.ip)
      (hr : h'.tab.routes = h.tab.routes) (hip6 : h'.ip6 = some ip6)
      (hr6 : h'.tab.routesV6 = Function.update h.tab.routesV6 ip6 (some addr)) :
      Pushed addr h h' (.drawn ip (some ip6)) none

namespace PushStage

/-- The entry the answer is about to make. -/
def claims : PushStage → Option Entry
  | .chosen ip => some (.route ip)
  | .drawn _ (some ip6) => some (.routeV6 ip6)
  | _ => none

def Lacks (ip : Option IpAddr) (ip6 : Option Ipv6Addr) : PushStage → Prop
  | .asked => True
  | .chosen _ => ip = none ∧ ip6 = none
  | .routed _ | .drawn .. => ip6 = none

end PushStage

section Pushed

variable {S : VpnServer Conn} {addr : SocketAddr} {h h' : Holding} {st : PushStage}
  {x : Option PushStage} {left : ℕ}

lemma Steady.enters (hs : Steady h h') : Enters addr h h' :=
  ⟨hs.peerId, .inl ⟨hs.ip, hs.routes⟩, .inl ⟨hs.ip6, hs.routesV6⟩⟩

lemma Pushed.enters (hp : Pushed addr h h' st x) (hl : st.Lacks h.ip h.ip6) :
    Enters addr h h' := by
  cases hp with
  | failed _ hs | chosen _ hs | drawn _ _ hs => exact hs.enters
  | routed ip hpid hip hr hip6 hr6 => exact ⟨hpid, .inr ⟨hl.1, ip, hip, hr⟩, .inl ⟨hip6, hr6⟩⟩
  | ended ip ip6 hpid hip hr hip6 hr6 => exact ⟨hpid, .inl ⟨hip, hr⟩, .inr ⟨hl, ip6, hip6, hr6⟩⟩

lemma Pushed.lacks (hp : Pushed addr h h' st x) (hl : st.Lacks h.ip h.ip6)
    (hask : st = .asked → h.ip = none ∧ h.ip6 = none) {st' : PushStage} (hx : x = some st') :
    st'.Lacks h'.ip h'.ip6 := by
  cases hp with
  | failed => cases hx
  | ended => cases hx
  | chosen ip hs =>
    cases hx
    exact ⟨hs.ip.trans (hask rfl).1, hs.ip6.trans (hask rfl).2⟩
  | routed ip hpid hip hr hip6 hr6 =>
    cases hx
    exact hip6.trans hl.2
  | drawn ip ip6 hs =>
    cases hx
    exact hs.ip6.trans hl

lemma steady_of_assets {w w' : World Conn} (ha : w'.assets = w.assets) :
    Steady w.abs.holding w'.abs.holding := by
  have htab : w'.tab = w.tab := congrArg (fun x => x.2.2.2) ha
  exact ⟨congrArg Prod.fst ha, congrArg (fun x => x.2.1) ha, congrArg (fun x => x.2.2.1) ha,
    congrArg Tables.routes htab, congrArg Tables.routesV6 htab⟩

lemma assets_reply (S : VpnServer Conn) (addr : SocketAddr) (left : ℕ) (ip : Ipv4Addr)
    (ip6 : Option Ipv6Addr) :
    Keeps World.assets (do
      replyPush S ip ip6
      driveLoop S addr left
      flushOutgoing S
      pure (none : Option PushStage)) := by
  intro w
  have hreply : Keeps World.assets (replyPush S ip ip6) :=
    keeps_get_bind fun u => keepsAt_bind (assets_sendPlaintext _ u) fun _ =>
      keeps_modify fun _ => rfl
  have hstate : Ends (fun _ => True) (replyPush S ip ip6)
      (fun _ u => u.sess.state = .established) fun _ => True :=
    ends_get_bind fun _ _ => ends_bind (M := fun _ _ => True) (ends_of_after fun _ _ => trivial)
      fun _ => ends_modify fun _ _ => rfl
  have ha := hreply w
  have hs := hstate w trivial
  rw [KeepsAt] at ha ⊢
  rcases hr : replyPush S ip ip6 w with ⟨e | _, u⟩ <;> rw [hr] at ha hs
  · rw [bind_error hr]
    exact ha
  · rw [bind_ok hr]
    -- the loop goes on behind the reply, but an established session is given nothing more
    have hlive : u.sess.state.early = false := by
      rw [show u.sess.state = .established from hs]
      rfl
    exact (keepsAt_bind (assets_driveLoop hlive) fun _ =>
      keeps_bind assets_flushOutgoing fun _ => keeps_pure _).trans ha

/-- The stage a step of an answer leads to, if the handler is not at its end. -/
def stageAfter : Except Err (Option PushStage) → Option PushStage
  | .ok x => x
  | .error _ => none

lemma next_pushed (S : VpnServer Conn) (addr : SocketAddr) (left : ℕ) (st : PushStage)
    (w : World Conn) :
    Pushed addr w.abs.holding (st.next S addr left w).2.abs.holding st
      (stageAfter (st.next S addr left w).1) := by
  have hsame : Steady w.abs.holding w.abs.holding := ⟨rfl, rfl, rfl, rfl, rfl⟩
  cases st with
  | asked =>
    rcases next_asked S addr left w with
      ⟨e, h⟩ | ⟨ip, -, h⟩ | h <;> rw [h]
    · exact .failed _ hsame
    · exact .chosen ip hsame
    · exact .chosen _ ⟨rfl, rfl, rfl, rfl, rfl⟩
  | chosen ip => exact .routed ip rfl rfl rfl rfl rfl
  | routed ip =>
    rcases next_routed S addr left ip w with
      ⟨e, h⟩ | h | ⟨ip6, -, h⟩ <;> rw [h]
    · exact .failed _ hsame
    · exact .drawn ip none hsame
    · exact .drawn ip _ ⟨rfl, rfl, rfl, rfl, rfl⟩
  | drawn ip ip6 =>
    have hafter : stageAfter ((PushStage.drawn ip ip6).next S addr left w).1 = none := by
      rcases hr : ((PushStage.drawn ip ip6).next S addr left w).1 with e | _ | st'
      · rfl
      · rfl
      · exact absurd hr (next_drawn ip ip6 w st')
    rw [hafter]
    cases ip6 with
    | none => exact .failed _ (steady_of_assets (assets_reply S addr left ip none w))
    | some v =>
      obtain ⟨hip, hip6, hpid, hr, hr6⟩ := steady_of_assets (assets_reply S addr left ip (some v)
        (routeIpV6 addr (some v) w).2)
      exact .ended ip v hpid hip hr hip6 hr6

end Pushed

/-! ### What a step of the server does -/

namespace FineServer

/-- The entry for the address which the errand `k` is going to choose in its next step. -/
def choice (S : VpnServer Conn) (f : FineServer Conn) (k : ℕ) : Option Entry :=
  match f.errands[k]? with
  | some (some (.push _ addr ref env log left st)) =>
    (f.heap[ref]?).bind fun o =>
      (stageAfter (st.next S addr left ⟨o.sess, f.tab, env, log⟩).1).bind PushStage.claims
  | _ => none

end FineServer

/-- What an event does to the server. -/
inductive Fines (S : VpnServer Conn) (f : FineServer Conn) : FineEvent Conn → FineServer Conn → Prop
  | idle {e} : Fines S f e f
  | served {e s'} (hs : Serves f.toServer e s')
      (hu : ∀ i env addr ref ctrl replayPid, e = .advance i env →
        f.tasks[i]? ≠ some (some ⟨addr, .locked ref ctrl replayPid⟩)) :
      Fines S f (.server e) { f with toServer := s' }
  | touched {e} (ref o o' errands) (ho : f.heap[ref]? = some o) (hh : o'.home = o.home)
      (hold : o'.holding f.tab = o.holding f.tab)
      (her : (∃ er, er.holds = none ∧ (∀ addr r ipPkt, er ≠ .found addr r ipPkt) ∧
          errands = f.errands ++ [some er]) ∨
        errands = f.errands ∨ ∃ k, errands = f.errands.set k none) :
      Fines S f e { f with heap := f.heap.set ref o', errands }
  /-- A control packet has been handled, and no `PUSH_REQUEST` come upon. -/
  | handled {i env addr ref ctrl replayPid} (o o')
      (hi : f.tasks[i]? = some (some ⟨addr, .locked ref ctrl replayPid⟩))
      (hn : f.held ref = false) (ho : f.heap[ref]? = some o) (hh : o'.home = o.home)
      (hs : Steady (o.holding f.tab) (o'.holding f.tab)) :
      Fines S f (.server (.advance i env))
        { f with heap := f.heap.set ref o', tasks := f.tasks.set i none }
  | asked {i env addr ref ctrl replayPid} (o o' env' log left)
      (hi : f.tasks[i]? = some (some ⟨addr, .locked ref ctrl replayPid⟩))
      (hn : f.held ref = false) (ho : f.heap[ref]? = some o) (hh : o'.home = o.home)
      (hs : Steady (o.holding f.tab) (o'.holding f.tab)) :
      Fines S f (.server (.advance i env))
        { f with heap := f.heap.set ref o',
                 errands := f.errands ++ [some (.push i addr ref env' log left .asked)] }
  | pushed {k env₀ i addr ref env log left st} (st' env' log' o o' tab)
      (hk : f.errands[k]? = some (some (.push i addr ref env log left st)))
      (ho : f.heap[ref]? = some o) (hh : o'.home = o.home)
      (hp : Pushed addr (o.holding f.tab) (o'.holding tab) st (some st'))
      (hc : f.choice S k = st'.claims) :
      Fines S f (.goOn k env₀)
        { f with heap := f.heap.set ref o', tab,
                 errands := f.errands.set k (some (.push i addr ref env' log' left st')) }
  | answered {k env₀ i addr ref env log left st} (o o' tab)
      (hk : f.errands[k]? = some (some (.push i addr ref env log left st)))
      (ho : f.heap[ref]? = some o) (hh : o'.home = o.home)
      (hp : Pushed addr (o.holding f.tab) (o'.holding tab) st none) :
      Fines S f (.goOn k env₀)
        { f with heap := f.heap.set ref o', tab, tasks := f.tasks.set i none,
                 errands := f.errands.set k none }
  | routed {ipPkt} (addr) (h : f.routeTun ipPkt = some addr) :
      Fines S f (.tun ipPkt) (f.start (.routed addr ipPkt))
  | found {k env addr ipPkt} (ref) (hk : f.errands[k]? = some (some (.routed addr ipPkt)))
      (hs : f.sessions addr = some ref) :
      Fines S f (.goOn k env) (f.update k (some (.found addr ref ipPkt)))
  | ended {k env er} (hk : f.errands[k]? = some (some er)) (hn : er.holds = none) :
      Fines S f (.goOn k env) (f.update k none)
  /-- The session in hand does not exist. -/
  | lost {e f'} (ref) (hn : f.heap[ref]? = none)
      (hr : (∃ (i : ℕ) (addr : SocketAddr) (ctrl : ControlPacket) (replayPid : Option UInt32),
          f.tasks[i]? = some (some ⟨addr, .locked ref ctrl replayPid⟩)) ∨
        ∃ (k i : ℕ) (addr : SocketAddr) (env : Env Conn) (log : List Effect) (left : ℕ)
          (st : PushStage), f.errands[k]? = some (some (.push i addr ref env log left st))) :
      Fines S f e f'

section Fines

variable {S : VpnServer Conn} {f : FineServer Conn}

lemma handle_fines {i : ℕ} {addr : SocketAddr} {ref : Ref} {ctrl : ControlPacket}
    {replayPid : Option UInt32}
    (hi : f.tasks[i]? = some (some ⟨addr, .locked ref ctrl replayPid⟩)) (hn : f.held ref = false)
    (env : Env Conn) :
    Fines S f (.server (.advance i env)) (f.handle S i addr ref env ctrl replayPid) := by
  unfold FineServer.handle
  rcases ho : f.heap[ref]? with _ | o
  · exact .lost ref ho (.inl ⟨i, addr, ctrl, replayPid, hi⟩)
  dsimp only
  have ha := assets_handleToPush S addr ctrl replayPid ⟨o.sess, f.tab, env, []⟩
  rw [KeepsAt] at ha
  rcases hr : handleToPush S addr ctrl replayPid ⟨o.sess, f.tab, env, []⟩ with ⟨e | _ | left, w⟩ <;>
    rw [hr] at ha <;>
    have htab : w.tab = f.tab := congrArg (fun x => x.2.2.2) ha <;>
    have hs : Steady (o.holding f.tab) (Object.holding ⟨o.home, w.sess⟩ w.tab) :=
      steady_of_assets ha <;>
    rw [htab] at hs <;>
    simp only [FineServer.keep, FineServer.finish, FineServer.start, htab]
  · exact .handled o ⟨o.home, w.sess⟩ hi hn ho rfl hs
  · exact .handled o ⟨o.home, w.sess⟩ hi hn ho rfl hs
  · exact .asked o ⟨o.home, w.sess⟩ w.env w.log left hi hn ho rfl hs

lemma push_fines {k i left : ℕ} {addr : SocketAddr} {ref : Ref} {env : Env Conn}
    {log : List Effect} {st : PushStage}
    (hk : f.errands[k]? = some (some (.push i addr ref env log left st))) (env₀ : Env Conn) :
    Fines S f (.goOn k env₀) (f.push S k i addr ref env log left st) := by
  unfold FineServer.push
  rcases ho : f.heap[ref]? with _ | o
  · exact .lost ref ho (.inr ⟨k, i, addr, env, log, left, st, hk⟩)
  have hp : Pushed addr (o.holding f.tab) _ st _ :=
    next_pushed S addr left st ⟨o.sess, f.tab, env, log⟩
  have hc : f.choice S k =
      (stageAfter (st.next S addr left ⟨o.sess, f.tab, env, log⟩).1).bind PushStage.claims := by
    simp only [FineServer.choice, hk, ho, Option.bind_some]
  dsimp only
  rcases hr : st.next S addr left ⟨o.sess, f.tab, env, log⟩ with ⟨e | _ | st', w⟩ <;>
    rw [hr] at hp hc
  · exact .answered o ⟨o.home, w.sess⟩ w.tab hk ho rfl hp
  · exact .answered o ⟨o.home, w.sess⟩ w.tab hk ho rfl hp
  · exact .pushed st' w.env w.log o ⟨o.home, w.sess⟩ w.tab hk ho rfl hp hc

lemma decrypt_fines (addr : SocketAddr) (ref : Ref) (env env' : Env Conn) (pkt : Bytes) :
    Fines S f (.server (.visit addr ref env (.data env' pkt))) (f.decrypt S ref env' pkt) := by
  unfold FineServer.decrypt
  rcases ho : f.heap[ref]? with _ | o
  · exact .idle
  dsimp only
  rcases decryptLocked_cases (S := S) ⟨o.sess, f.tab, env', []⟩ pkt with
    ⟨e, h⟩ | ⟨dp, i, slot, plaintext, -, h⟩ <;> rw [h]
  · exact .touched ref o o _ ho rfl rfl (.inr (.inl rfl))
  · exact .touched ref o ⟨o.home, _⟩ _ ho rfl rfl
      (.inl ⟨.opened ref pkt plaintext, rfl, fun _ _ _ => nofun, rfl⟩)

lemma advance_fines (i : ℕ) (env : Env Conn) :
    Fines S f (.server (.advance i env)) (f.advance S i env) := by
  by_cases hl : ∃ addr ref ctrl replayPid,
      f.tasks[i]? = some (some ⟨addr, .locked ref ctrl replayPid⟩)
  · obtain ⟨addr, ref, ctrl, replayPid, hi⟩ := hl
    simp only [FineServer.advance, hi]
    split
    · exact .idle
    · rename_i hn
      exact handle_fines hi (Bool.eq_false_iff.mpr hn) env
  · have hserved : Fines S f (.server (.advance i env)) (f.coarse S (.advance i env)) :=
      .served (serve_serves S f.toServer _) fun j env' addr ref ctrl replayPid he hj => by
        cases he
        exact hl ⟨addr, ref, ctrl, replayPid, hj⟩
    unfold FineServer.advance
    split
    · rename_i hi
      exact absurd ⟨_, _, _, _, hi⟩ hl
    -- a task that waits for a lock does not advance
    · split
      · exact .idle
      · exact hserved
    · split
      · exact .idle
      · exact hserved
    · exact hserved

/-- **Every event of the fine server is one of these.** -/
theorem fine_fines (S : VpnServer Conn) (f : FineServer Conn) (e : FineEvent Conn) :
    Fines S f e (fine S f e) := by
  cases e with
  | tun ipPkt =>
    simp only [fine]
    rcases hr : f.routeTun ipPkt with _ | addr
    · exact .idle
    · exact .routed addr hr
  | goOn k env =>
    simp only [fine]
    rcases hk : f.errands[k]? with _ | _ | er
    · exact .idle
    · exact .idle
    cases er with
    | push i addr ref env' log left st => exact push_fines hk env
    | routed addr ipPkt =>
      simp only [FineServer.goOn]
      rcases hs : f.sessions addr with _ | ref
      · exact .ended hk rfl
      · exact .found ref hk hs
    | found addr ref ipPkt =>
      simp only [FineServer.goOn]
      split
      · exact .idle
      rcases underLock_visit (S := S) f.toServer addr ref env (e := .tun env ipPkt) rfl with
        h | ⟨o, o', ho, hh, hold, h⟩ <;> rw [h]
      · exact .ended hk rfl
      · exact .touched ref o o' _ ho hh hold (.inr (.inr ⟨k, rfl⟩))
    | opened => exact .ended hk rfl
  | server e =>
    have hserved (hu : ∀ i env addr ref ctrl replayPid, e = .advance i env →
        f.tasks[i]? ≠ some (some ⟨addr, .locked ref ctrl replayPid⟩)) :
        Fines S f (.server e) (f.coarse S e) := .served (serve_serves S f.toServer e) hu
    cases e with
    | control | reap | close => exact hserved fun _ _ _ _ _ _ he => by cases he
    | forward => exact .idle
    | visit addr ref env v =>
      cases v with
      | data env' pkt =>
        simp only [fine]
        split
        · exact .idle
        · exact decrypt_fines addr ref env env' pkt
      | tun => exact .idle
      | _ =>
        simp only [fine]
        split
        · exact .idle
        · exact hserved fun _ _ _ _ _ _ he => by cases he
    | advance i env => exact advance_fines i env

end Fines

end Javs
