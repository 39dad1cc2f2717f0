import Javs.DataReplay
import Javs.Grain
import Javs.Lifecycle

/-!
When the data plane of a client is live.

A session may forward data packets and packets from the TUN as soon as it has key slots, and
as long as its entries in the maps lead to it. Neither is tied to the established state: the
slots come with the key exchange, before the client has asked for its configuration, and they
stay behind its exit message, as the route does.
-/

namespace Javs

open Lib Lib.Proc Relation M

variable {Conn : Type}

/-! ### The sessions of the server -/

def Server.locked (s : Server Conn) (ref : Ref) (env : Env Conn) : Option (World Conn) :=
  s.heap[ref]?.map fun o => ⟨o.sess, s.tab, env, []⟩

/-- The session an event of the server works on under its lock, and what happens to it. -/
def Server.worksOn (s : Server Conn) :
    ServerEvent Conn → Option (SocketAddr × World Conn × Event Conn)
  | .advance i env =>
    match s.tasks[i]? with
    | some (some ⟨addr, .locked ref ctrl replayPid⟩) =>
      (s.locked ref env).map (addr, ·, .control env ctrl replayPid)
    | _ => none
  | .forward env ipPkt =>
    match s.forwardTarget ipPkt with
    | some (addr, ref) => (s.locked ref env).map (addr, ·, .tun env ipPkt)
    | none => none
  | .visit addr ref env e => if e.isVisit then (s.locked ref env).map (addr, ·, e) else none
  | _ => none

section Sessions

variable {s : Server Conn} {e : ServerEvent Conn}

lemma locked_eq {ref : Ref} {env : Env Conn} {addr addr' : SocketAddr} {w : World Conn}
    {v v' : Event Conn} (h : (s.locked ref env).map (addr, ·, v) = some (addr', w, v')) :
    ∃ o ∈ s.heap, w = ⟨o.sess, s.tab, env, []⟩ ∧ v' = v := by
  obtain ⟨w', hw, heq⟩ := Option.map_eq_some_iff.mp h
  obtain ⟨o, ho, rfl⟩ := Option.map_eq_some_iff.mp hw
  cases heq
  exact ⟨o, List.mem_of_getElem? ho, rfl, rfl⟩

lemma locked_log {ref : Ref} {env : Env Conn} {w : World Conn} (h : s.locked ref env = some w) :
    w.log = [] := by
  obtain ⟨o, -, rfl⟩ := Option.map_eq_some_iff.mp h
  rfl

lemma worksOn_sess {addr : SocketAddr} {w : World Conn} {v : Event Conn}
    (h : s.worksOn e = some (addr, w, v)) : ∃ o ∈ s.heap, w.sess = o.sess ∧ w.log = [] := by
  cases e with
  | control | reap | close => cases h
  | advance | forward | visit =>
    simp only [Server.worksOn] at h
    split at h
    · obtain ⟨o, ho, rfl, -⟩ := locked_eq h
      exact ⟨o, ho, rfl, rfl⟩
    · cases h

end Sessions

/-! ### Slots and states -/

/-- The shape of a session between two events. -/
def Session.Shaped (sess : Session Conn) : Prop :=
  ∀ w : World Conn, w.sess = sess → Shape w.abs ∧ w.abs.Unkeyed

lemma shaped_of_abs {w : World Conn} (h : Shape w.abs) (hu : w.abs.Unkeyed) : w.sess.Shaped := by
  intro w' hw
  have htable : w'.abs.table = w.abs.table := by simp only [World.abs, hw]
  have hstate : w'.abs.state = w.abs.state := by simp only [World.abs, hw]
  have hrekey : w'.abs.rekey = w.abs.rekey := by simp only [World.abs, hw]
  refine ⟨h.congr htable hstate hrekey, ?_⟩
  unfold Abs.Unkeyed
  rw [htable, hstate]
  exact hu

section Shaped

variable {S : VpnServer Conn} {w : World Conn}

lemma shaped_started (S : VpnServer Conn) (op : Opening Conn) : (started S op).sess.Shaped :=
  shaped_of_abs (lifecycle_started S op).1.toShape (lifecycle_started S op).2

lemma Session.Shaped.step (hS : S.Queues) (h : w.sess.Shaped) (addr : SocketAddr)
    (e : Event Conn) : (step S addr w e).sess.Shaped := by
  obtain ⟨hw, hu⟩ := h w rfl
  exact shaped_of_abs (hw.react (step_reacts S addr w e)) (unkeyed_step hS hw hu e)

lemma Session.Shaped.keyed (h : w.sess.Shaped) {i : Fin 2} {slot : KeySlot}
    (hs : w.sess.slots i = some slot) :
    w.sess.state = .pushPending ∨ w.sess.state = .established ∨ w.sess.state = .closed := by
  obtain ⟨hw, hu⟩ := h w rfl
  have hkeyed : w.sess.state.unkeyed ≠ true := fun hun => by
    have hnone := hw.bare (hu hun) i
    rw [show w.abs.table.slots i = some slot from hs] at hnone
    cases hnone
  revert hkeyed
  cases w.sess.state <;> simp [State.unkeyed]

/-- In shape, and at least so far on its way. -/
def Session.Reached (n : ℕ) (sess : Session Conn) : Prop := sess.Shaped ∧ n ≤ sess.state.rank

lemma Session.Reached.mono {n m : ℕ} (h : w.sess.Reached m) (hn : n ≤ m) : w.sess.Reached n :=
  ⟨h.1, hn.trans h.2⟩

lemma reached_congr {n : ℕ} {w' : World Conn} (h : w.sess.Reached n)
    (ht : w'.abs.table = w.abs.table) (hs : w'.abs.state = w.abs.state)
    (hr : w'.abs.rekey = w.abs.rekey) : w'.sess.Reached n := by
  obtain ⟨hshape, hu⟩ := h.1 w rfl
  refine ⟨shaped_of_abs (hshape.congr ht hs hr) ?_, ?_⟩
  · unfold Abs.Unkeyed
    rw [ht, hs]
    exact hu
  · rw [show w'.sess.state = w.sess.state from hs]
    exact h.2

lemma reached_of_moves {n m : ℕ} {l : Lane} {addr : SocketAddr} {w' : World Conn}
    (h : w.sess.Reached n) (hm : ReflTransGen (Move S addr m l) w.abs w'.abs)
    (hu : w'.abs.Unkeyed) : w'.sess.Reached n :=
  ⟨shaped_of_abs ((h.1 w rfl).1.moves hm) hu, h.2.trans (moves_forward hm)⟩

lemma reached_step (hS : S.Queues) {n : ℕ} (h : w.sess.Reached n) (addr : SocketAddr)
    (e : Event Conn) : (step S addr w e).sess.Reached n :=
  ⟨h.1.step hS addr e, h.2.trans (step_reacts S addr w e).forward⟩

lemma reached_opened {pkt plaintext : Bytes} {dp : DataPacketV2} {i : Fin 2} {slot : KeySlot}
    (h : w.sess.Shaped) (ho : Opens S w pkt dp i slot plaintext) :
    (w.opened pkt dp i slot).sess.Reached 3 := by
  have hrank : 3 ≤ (w.opened pkt dp i slot).sess.state.rank := by
    show 3 ≤ w.sess.state.rank
    rcases h.keyed ho.found with hst | hst | hst <;> rw [hst] <;> decide
  have hend : Enduring S ⟨.v4 0, 0⟩ (fun _ => True) Shape := enduring_shape
  exact ⟨shaped_of_abs (hend.opened (h w rfl).1 ho) (unkeyed_of_rank hrank), hrank⟩

end Shaped

/-! ### The parts of a handler -/

section Parts

variable {S : VpnServer Conn} {addr : SocketAddr} {n : ℕ}

/-- Whatever happens in it, the session stays in shape and does not go back. -/
def Upholds {α : Type} (n : ℕ) (m : M Conn α) : Prop :=
  Ends (fun w => w.sess.Reached n) m (fun _ w => w.sess.Reached n) fun w => w.sess.Reached n

lemma upholds_of_keeps {α : Type} {m : M Conn α} (h : Keeps (fun w => w.abs.slotView) m) :
    Upholds n m := by
  refine ends_of_after fun w hw => ?_
  have hv := h w
  exact reached_congr hw (congrArg SlotView.table hv) (congrArg SlotView.state hv)
    (congrArg SlotView.rekey hv)

lemma upholds_driveRound (hS : S.Queues) : Upholds n (driveRound S addr) := by
  refine ends_of_after fun w hw => ?_
  have hm : ReflTransGen (Move S addr w.log.length .main) w.abs (driveRound S addr w).2.abs :=
    Steps.of_reflTransGen (meets_driveRound w (round_now w)).1
  exact reached_of_moves hw hm ((ends_driveRound hS).after (hw.1 w rfl).2)

lemma upholds_driveLoop (hS : S.Queues) (fuel : ℕ) : Upholds n (driveLoop S addr fuel) := by
  induction fuel with
  | zero => exact ends_pure fun _ h => h
  | succ fuel ih =>
    refine ends_bind (upholds_driveRound hS) fun goOn => ?_
    cases goOn with
    | true => exact ih
    | false => exact ends_pure fun _ h => h

lemma upholds_flushOutgoing : Upholds n (flushOutgoing S) := by
  refine ends_of_after fun w hw => ?_
  have hm : ReflTransGen (Move S ⟨.v4 0, 0⟩ 0 .flush) w.abs (flushOutgoing S w).2.abs :=
    steps_of_meets (meets_flushOutgoing (c := w.abs.core) (.inr rfl)) rfl rfl
  exact reached_of_moves hw hm
    (unkeyed_of_slotView (slotView_sending (.inr rfl) hm) (hw.1 w rfl).2)

lemma slotView_drainPlaintext (k : ℕ) :
    Keeps (fun w => w.abs.slotView) (drainPlaintext k : M Conn Unit) := by
  intro w
  have h := ends_drainPlaintext (w := w) k w rfl
  rw [KeepsAt]
  rcases hr : drainPlaintext k w with ⟨e | _, u⟩ <;> rw [hr] at h
  · rw [show u = w from h]
  · obtain ⟨tls, hu⟩ := h
    rw [hu]
    rfl

lemma ends_driveToPush (hS : S.Queues) (fuel : ℕ) :
    Ends (fun w => w.sess.Reached n) (driveToPush S addr fuel)
      (fun r w => w.sess.Reached n ∧ (r.isSome → w.sess.Reached 3)) fun w => w.sess.Reached n := by
  induction fuel with
  | zero => exact ends_pure fun _ h => ⟨h, nofun⟩
  | succ fuel ih =>
    refine ends_get_bind fun w hw => ?_
    rcases hasks : w.sess.asks with _ | k
    · refine ends_bind ((upholds_driveRound hS).conseq (fun _ h => h ▸ hw) (fun _ _ h => h)
        fun _ h => h) fun goOn => ?_
      cases goOn
      · exact ends_pure fun _ h => ⟨h, nofun⟩
      · exact ih
    -- a `PUSH_REQUEST` is answered in one state only, and that has the keys
    · have hat : w.sess.Reached 3 := ⟨hw.1, by rw [(Session.asks_eq hasks).1]; exact le_rfl⟩
      have hdrain : Ends (fun v => v = w) (drainPlaintext k)
          (fun _ v => v.sess.Reached n ∧ v.sess.Reached 3) fun v => v.sess.Reached n := by
        refine (ends_of_after (E := fun v => v.sess.Reached n ∧ v.sess.Reached 3) ?_).conseq
          (fun _ h => h) (fun _ _ h => h) fun _ h => h.1
        rintro v rfl
        exact ⟨(upholds_of_keeps (slotView_drainPlaintext k)).after hw,
          (upholds_of_keeps (slotView_drainPlaintext k)).after hat⟩
      exact ends_bind hdrain fun _ => ends_pure fun _ h => ⟨h.1, fun _ => h.2⟩

lemma reached_finalizeKeys {w w' : World Conn} (h : w.sess.Reached n)
    (hs : w.sess.state = .handshaking) (hw : w'.sess = w.sess.finalizeKeys S.rustls) :
    w'.sess.Reached n := by
  obtain ⟨hshape, hu⟩ := h.1 w rfl
  have hstate : w'.sess.state = .keyExchange := by
    rw [hw, Session.finalizeKeys]
    split <;> rfl
  have htable : w'.abs.table = w.abs.table := by
    simp only [World.abs, hw, Session.finalizeKeys]
    split <;> rfl
  have hrekey : w'.abs.rekey = w.abs.rekey := by
    simp only [World.abs, hw, Session.finalizeKeys]
    split <;> rfl
  have hnone : w'.abs.table.activeSlot = none := by
    rw [htable]
    refine hu ?_
    rw [show w.abs.state = _ from hs]
    rfl
  refine ⟨shaped_of_abs ⟨fun hk => ?_, ?_, fun t ht => ?_⟩ fun _ => hnone, ?_⟩
  · rw [show w'.abs.state = _ from hstate] at hk
    cases hk
  · rw [htable]
    exact hshape.bare
  · rw [hrekey] at ht
    exact absurd ht (hshape.no_track (by rw [show w.abs.state = _ from hs]; rfl) t)
  · rw [hstate]
    have hn := h.2
    rw [hs] at hn
    exact hn.trans (by decide)

lemma upholds_feedMain (ctrl : ControlPacket) : Upholds n (feedMain S ctrl) := by
  refine ends_get_bind fun w hw => ?_
  rcases w.sess.tls.feed S.rustls ctrl.payload with ⟨tls, fed⟩
  let P : World Conn → Prop := fun v => v.sess.Reached n ∧ v.sess.state = w.sess.state
  refine ends_bind (M := fun _ => P) (ends_put ⟨reached_congr hw rfl rfl rfl, rfl⟩) fun _ => ?_
  refine ends_bind ((ends_context _ _).conseq (fun _ h => h) (fun _ _ h => h) fun _ h => h.1)
    fun _ => ?_
  split
  · rename_i hst
    exact ends_modify fun v hv => reached_finalizeKeys hv.1 (hv.2.trans hst.1) rfl
  · exact ends_pure fun _ h => h.1

lemma ends_handleMainToPush (hS : S.Queues) (addr : SocketAddr) (ctrl : ControlPacket) :
    Ends (fun w => w.sess.Reached n) (handleMainToPush S addr ctrl)
      (fun r w => w.sess.Reached n ∧ (r.isSome → w.sess.Reached 3)) fun w => w.sess.Reached n := by
  refine ends_bind (upholds_feedMain ctrl) fun _ => ends_get_bind fun w hw => ?_
  refine ends_bind ((ends_driveToPush hS _).conseq (fun _ h => h ▸ hw) (fun _ _ h => h)
    fun _ h => h) fun r => ?_
  cases r with
  | none =>
    exact ends_bind (upholds_flushOutgoing.conseq (fun _ h => h.1) (fun _ _ h => h) fun _ h => h)
      fun _ => ends_pure fun _ h => ⟨h, nofun⟩
  | some left => exact ends_pure fun _ h => h

lemma reached_handleToPush (hS : S.Queues) {w : World Conn} (h : w.sess.Reached n)
    (addr : SocketAddr) (ctrl : ControlPacket) (replayPid : Option UInt32) :
    (handleToPush S addr ctrl replayPid w).2.sess.Reached n ∧
      ∀ left, (handleToPush S addr ctrl replayPid w).1 = .ok (some left) →
        (handleToPush S addr ctrl replayPid w).2.sess.Reached 3 := by
  by_cases hmain : ctrl.op = .controlV1 ∧ isRekey w.sess ctrl = false
  · rcases handleToPush_main (S := S) hmain.1 hmain.2 with ⟨e, v, hv, habs⟩ | ⟨v, habs, hv⟩
    · rw [hv]
      exact ⟨reached_congr h (congrArg Abs.table habs) (congrArg Abs.state habs)
        (congrArg Abs.rekey habs), nofun⟩
    · have hview : v.abs.slotView = w.abs.slotView := by rw [habs, slotView_hear]
      have hends := ends_handleMainToPush hS addr ctrl v
        (reached_congr h (congrArg SlotView.table hview) (congrArg SlotView.state hview)
          (congrArg SlotView.rekey hview))
      rw [hv]
      rcases hr : handleMainToPush S addr ctrl v with ⟨e | r, u⟩ <;> rw [hr] at hends
      · exact ⟨hends, nofun⟩
      · refine ⟨hends.1, fun left hleft => hends.2 ?_⟩
        cases hleft
        rfl
  · obtain ⟨hsame, hnone⟩ := handleToPush_aside (S := S) hmain
    rw [hsame]
    exact ⟨reached_step hS h addr (.control w.env ctrl replayPid),
      fun left hleft => absurd hleft (hnone left)⟩

lemma reached_next (hS : S.Queues) {w : World Conn} (h : w.sess.Reached 3) (addr : SocketAddr)
    (left : ℕ) (st : PushStage) : (st.next S addr left w).2.sess.Reached 3 := by
  cases st with
  -- up to the last stage only addresses and tables change
  | asked =>
    rcases next_asked S addr left w with ⟨e, hr⟩ | ⟨ip, -, hr⟩ | hr <;> rw [hr] <;>
      exact reached_congr h rfl rfl rfl
  | chosen ip => exact reached_congr h rfl rfl rfl
  | routed ip =>
    rcases next_routed S addr left ip w with ⟨e, hr⟩ | hr | ⟨ip6, -, hr⟩ <;> rw [hr] <;>
      exact reached_congr h rfl rfl rfl
  | drawn ip ip6 =>
    have hroute : Upholds 3 (routeIpV6 addr ip6 : M Conn Unit) := by
      refine ends_of_after fun v hv => ?_
      cases ip6 <;> exact reached_congr hv rfl rfl rfl
    have hreply : Upholds 3 (replyPush S ip ip6) := by
      refine ends_get_bind fun v hv => ?_
      refine ends_bind (M := fun _ u => u.sess.Reached 3) ?_ fun _ => ends_modify fun u hu => ?_
      · refine (ends_sendPlaintext hS _ v).conseq (fun _ h => h) (fun _ u hu => ?_) fun _ h => h
        obtain ⟨tls, rfl⟩ := hu
        exact reached_congr hv rfl rfl rfl
      -- the last one establishes the session, which has its slot by then
      · obtain ⟨hshape, -⟩ := hu.1 u rfl
        have hkeyed : u.abs.state.unkeyed = false := by
          have hrank : 3 ≤ u.abs.state.rank := hu.2
          revert hrank
          cases u.abs.state <;> simp [State.rank, State.unkeyed]
        exact ⟨shaped_of_abs (.of_active (hshape.keyed hkeyed) fun _ _ => rfl)
          fun h => absurd h Bool.false_ne_true, Nat.le_succ 3⟩
    have hall : Upholds 3 ((PushStage.drawn ip ip6).next S addr left) :=
      ends_bind hroute fun _ => ends_bind hreply fun _ =>
        ends_bind (upholds_driveLoop hS left) fun _ =>
          ends_bind upholds_flushOutgoing fun _ => ends_pure fun _ h => h
    exact hall.after h

end Parts

/-! ### The sessions of a run -/

/-- What becomes of the sessions: one of them is worked on, or a new one comes in. -/
inductive Heaped (h : List (Object Conn)) : List (Object Conn) → Prop
  | same : Heaped h h
  | worked (ref o sess) (ho : h[ref]? = some o)
      (hs : ∀ n ≤ 3, o.sess.Reached n → sess.Reached n) : Heaped h (h.set ref { o with sess })
  | created (home sess) (hs : sess.Shaped) : Heaped h (h ++ [⟨home, sess⟩])

section Heaped

variable {S : VpnServer Conn} {s : Server Conn} {h h' : List (Object Conn)}

lemma Heaped.shaped (hh : Heaped h h') (hs : ∀ o ∈ h, o.sess.Shaped) :
    ∀ o ∈ h', o.sess.Shaped := by
  intro o ho
  cases hh with
  | same => exact hs o ho
  | worked ref x sess hx hr =>
    rcases List.mem_or_eq_of_mem_set ho with ho | rfl
    · exact hs o ho
    · exact (hr 0 (Nat.zero_le 3) ⟨hs x (List.mem_of_getElem? hx), Nat.zero_le _⟩).1
  | created home sess hnew =>
    rcases List.mem_append.mp ho with ho | ho
    · exact hs o ho
    · rw [List.mem_singleton.mp ho]
      exact hnew

lemma Heaped.reached (hh : Heaped h h') {ref : Ref}
    (hr : ∃ o, h[ref]? = some o ∧ o.sess.Reached 3) :
    ∃ o, h'[ref]? = some o ∧ o.sess.Reached 3 := by
  obtain ⟨o, ho, hreached⟩ := hr
  cases hh with
  | same => exact ⟨o, ho, hreached⟩
  | worked r x sess hx hw =>
    by_cases hne : ref = r
    · subst hne
      cases ho.symm.trans hx
      exact ⟨_, List.getElem?_set_self (List.getElem?_eq_some_iff.mp ho).1, hw 3 le_rfl hreached⟩
    · exact ⟨o, by rw [List.getElem?_set_ne (Ne.symm hne), ho], hreached⟩
  | created home sess =>
    exact ⟨o, by rw [List.getElem?_append_left (List.getElem?_eq_some_iff.mp ho).1, ho], hreached⟩

lemma heaped_underLock (hS : S.Queues) (addr : SocketAddr) (ref : Ref) (env : Env Conn)
    (v : Event Conn) : Heaped s.heap (underLock S s addr ref env v).heap := by
  rcases ho : s.heap[ref]? with _ | o
  · rw [underLock_of_none ho]
    exact .same
  · rw [underLock_of_some ho]
    exact .worked ref o _ ho fun n _ hr => reached_step hS hr addr v

lemma heaped_createSession (env : Env Conn) (addr : SocketAddr) (ctrl : ControlPacket)
    (replayPid : Option UInt32) (transport : Transport) :
    Heaped s.heap (createSession S env s addr ctrl replayPid transport).1.heap := by
  unfold createSession
  rcases env.conn with _ | conn
  · exact .same
  dsimp only
  rcases hg : greet S ctrl
    ⟨newSession ctrl replayPid s.newPeerId transport conn env, s.tab, env, []⟩ with ⟨_ | _, w⟩
  · exact .same
  · refine .created addr w.sess ?_
    have hstart := shaped_started S ⟨env, conn, s.tab, ctrl, replayPid, s.newPeerId, transport⟩
    rwa [started, hg] at hstart

lemma heaped_next (hS : S.Queues) (t : Task) (env : Env Conn) :
    Heaped s.heap (t.next S env s).1.heap := by
  unfold Task.next
  rcases t.stage with ⟨ctrl, replayPid, transport⟩ | ⟨ctrl, replayPid, transport⟩ |
    ⟨ctrl, replayPid⟩ | ⟨ref, ctrl, replayPid⟩ | _ | ref | _ | ref | ⟨ref, _ | ⟨op, todo⟩⟩ <;>
    dsimp only
  · split <;> exact .same
  · exact heaped_createSession env t.addr ctrl replayPid transport
  · exact .same
  · exact heaped_underLock hS t.addr ref env _
  · exact .same
  · split
    · exact .same
    · split <;> exact .same
  · split <;> exact .same
  · split <;> exact .same
  · exact .same
  · rw [MapOp.heap_run]
    exact .same

lemma heaped_serve (hS : S.Queues) (e : ServerEvent Conn) : Heaped s.heap (serve S s e).heap := by
  cases e with
  | control | reap | close => exact .same
  | advance i env =>
    simp only [serve]
    rcases s.tasks[i]? with _ | _ | t
    · exact .same
    · exact .same
    · exact heaped_next hS t env
  | forward env ipPkt =>
    simp only [serve]
    rcases s.forwardTarget ipPkt with _ | ⟨addr, ref⟩
    · exact .same
    · exact heaped_underLock hS addr ref env _
  | visit addr ref env v =>
    simp only [serve]
    split
    · exact heaped_underLock hS addr ref env v
    · exact .same

end Heaped

/-- The session that has exchanged its keys, or the errand would not be there. -/
def Errand.keyed : Errand Conn → Option Ref
  | .push _ _ ref .. | .opened ref .. => some ref
  | _ => none

/-- Every session is in shape, and those that errands rely on have exchanged their keys. -/
structure FineServer.InShape (f : FineServer Conn) : Prop where
  shaped : ∀ o ∈ f.heap, o.sess.Shaped
  keyed : ∀ er, some er ∈ f.errands → ∀ ref, er.keyed = some ref →
    ∃ o, f.heap[ref]? = some o ∧ o.sess.Reached 3

section InShape

variable {S : VpnServer Conn} {f f' : FineServer Conn}

lemma FineServer.InShape.after (h : f.InShape) (hh : Heaped f.heap f'.heap)
    (he : ∀ er, some er ∈ f'.errands → some er ∈ f.errands ∨ ∀ ref, er.keyed = some ref →
      ∃ o, f'.heap[ref]? = some o ∧ o.sess.Reached 3) : f'.InShape := by
  refine ⟨hh.shaped h.shaped, fun er her ref href => ?_⟩
  rcases he er her with hold | hnew
  · exact hh.reached (h.keyed er hold ref href)
  · exact hnew ref href

lemma mem_errands_set {errands : List (Option (Errand Conn))} {k : ℕ} {x : Option (Errand Conn)}
    {er : Errand Conn} (h : some er ∈ errands.set k x) : some er ∈ errands ∨ x = some er :=
  (List.mem_or_eq_of_mem_set h).imp_right Eq.symm

lemma mem_errands_start {errands : List (Option (Errand Conn))} {x er : Errand Conn}
    (h : some er ∈ errands ++ [some x]) : some er ∈ errands ∨ x = er := by
  rcases List.mem_append.mp h with h | h
  · exact .inl h
  · exact .inr (Option.some.inj (List.mem_singleton.mp h)).symm

lemma FineServer.InShape.coarse (h : f.InShape) (hS : S.Queues) (e : ServerEvent Conn) :
    (f.coarse S e).InShape :=
  h.after (heaped_serve hS e) fun _ her => .inl her

lemma FineServer.InShape.handle (h : f.InShape) (hS : S.Queues) (i : ℕ) (addr : SocketAddr)
    (ref : Ref) (env : Env Conn) (ctrl : ControlPacket) (replayPid : Option UInt32) :
    (f.handle S i addr ref env ctrl replayPid).InShape := by
  unfold FineServer.handle
  rcases ho : f.heap[ref]? with _ | o
  · exact h.after .same fun _ her => .inl her
  have hreached (n : ℕ) (hr : o.sess.Reached n) :=
    reached_handleToPush (S := S) hS (w := ⟨o.sess, f.tab, env, []⟩) hr addr ctrl replayPid
  have hshaped : o.sess.Reached 0 := ⟨h.shaped o (List.mem_of_getElem? ho), Nat.zero_le _⟩
  dsimp only
  rcases hr : handleToPush S addr ctrl replayPid ⟨o.sess, f.tab, env, []⟩ with ⟨e | _ | left, w⟩ <;>
    rw [hr] at hreached
  · exact h.after (.worked ref o w.sess ho fun n _ hn => (hreached n hn).1) fun _ her => .inl her
  · exact h.after (.worked ref o w.sess ho fun n _ hn => (hreached n hn).1) fun _ her => .inl her
  · refine h.after (.worked ref o w.sess ho fun n _ hn => (hreached n hn).1) fun er her => ?_
    refine (mem_errands_start her).imp_right ?_
    rintro rfl r hr
    cases hr
    exact ⟨_, List.getElem?_set_self (List.getElem?_eq_some_iff.mp ho).1,
      (hreached 0 hshaped).2 left rfl⟩

lemma FineServer.InShape.push (h : f.InShape) (hS : S.Queues) {k i left : ℕ} {addr : SocketAddr}
    {ref : Ref} {env : Env Conn} {log : List Effect} {st : PushStage}
    (hk : f.errands[k]? = some (some (.push i addr ref env log left st))) :
    (f.push S k i addr ref env log left st).InShape := by
  obtain ⟨o, ho, hreached⟩ := h.keyed _ (List.mem_of_getElem? hk) ref rfl
  have hnext := reached_next hS (w := ⟨o.sess, f.tab, env, log⟩) hreached addr left st
  unfold FineServer.push
  rw [ho]
  dsimp only
  rcases hr : st.next S addr left ⟨o.sess, f.tab, env, log⟩ with ⟨e | _ | st', w⟩ <;>
    rw [hr] at hnext <;>
    have hheap : Heaped f.heap (f.heap.set ref { o with sess := w.sess }) :=
      .worked ref o w.sess ho fun n hn _ => hnext.mono hn
  · exact h.after hheap fun _ her => (mem_errands_set her).imp_right nofun
  · exact h.after hheap fun _ her => (mem_errands_set her).imp_right nofun
  -- an answer goes on for a session that stays behind its key exchange
  · refine h.after hheap fun er her => (mem_errands_set her).imp_right ?_
    intro hx r hr
    cases hx
    cases hr
    exact ⟨_, List.getElem?_set_self (List.getElem?_eq_some_iff.mp ho).1, hnext⟩

lemma FineServer.InShape.decrypt (h : f.InShape) (ref : Ref) (env : Env Conn) (pkt : Bytes) :
    (f.decrypt S ref env pkt).InShape := by
  unfold FineServer.decrypt
  rcases ho : f.heap[ref]? with _ | o
  · exact h
  dsimp only
  rcases decryptLocked_cases (S := S) ⟨o.sess, f.tab, env, []⟩ pkt with
    ⟨e, hr⟩ | ⟨dp, i, slot, plaintext, hopens, hr⟩ <;> rw [hr]
  · exact h.after (.worked ref o o.sess ho fun _ _ hn => hn) fun _ her => .inl her
  · have hreached := reached_opened (h.shaped o (List.mem_of_getElem? ho)) hopens
    refine h.after (.worked ref o _ ho fun n hn _ => hreached.mono hn) fun er her => ?_
    refine (mem_errands_start her).imp_right ?_
    rintro rfl r hr
    cases hr
    exact ⟨_, List.getElem?_set_self (List.getElem?_eq_some_iff.mp ho).1, hreached⟩

lemma FineServer.InShape.advance (h : f.InShape) (hS : S.Queues) (i : ℕ) (env : Env Conn) :
    (f.advance S i env).InShape := by
  unfold FineServer.advance
  split
  · split
    · exact h
    · exact h.handle hS ..
  · split
    · exact h
    · exact h.coarse hS _
  · split
    · exact h
    · exact h.coarse hS _
  · exact h.coarse hS _

lemma FineServer.InShape.goOn (h : f.InShape) (hS : S.Queues) {k : ℕ} (env : Env Conn)
    {er : Errand Conn} (hk : f.errands[k]? = some (some er)) : (f.goOn S k env er).InShape := by
  cases er with
  | push => exact h.push hS hk
  | routed addr ipPkt =>
    refine h.after .same fun er her => (mem_errands_set her).imp_right fun hx r hr => ?_
    obtain ⟨ref, -, rfl⟩ := Option.map_eq_some_iff.mp hx
    cases hr
  | found addr ref ipPkt =>
    simp only [FineServer.goOn]
    split
    · exact h
    · exact h.after (heaped_underLock hS addr ref env _) fun _ her =>
        (mem_errands_set her).imp_right fun hx => by cases hx
  | opened =>
    exact h.after .same fun _ her => (mem_errands_set her).imp_right fun hx => by cases hx

/-- **The sessions stay in shape, however the steps of the tasks are interleaved.** -/
theorem FineServer.InShape.fine (h : f.InShape) (hS : S.Queues) (e : FineEvent Conn) :
    (fine S f e).InShape := by
  cases e with
  | tun ipPkt =>
    simp only [Javs.fine]
    split
    · refine h.after .same fun er her => (mem_errands_start her).imp_right ?_
      rintro rfl r hr
      cases hr
    · exact h
  | goOn k env =>
    simp only [Javs.fine]
    split
    · rename_i hk
      exact h.goOn hS env hk
    · exact h
  | server e =>
    cases e with
    | control | reap | close => exact h.coarse hS _
    | forward => exact h
    | advance i env => exact h.advance hS i env
    | visit addr ref env v =>
      cases v with
      | data env' pkt =>
        simp only [Javs.fine]
        split
        · exact h
        · exact h.decrypt ref env' pkt
      | tun => exact h
      | _ =>
        simp only [Javs.fine]
        split
        · exact h
        · exact h.coarse hS _

end InShape

/-! ### The data plane -/

def Effect.isDataPlane : Effect → Bool
  | .tun .. | .sealed .. => true
  | _ => false

/-- What a task of the data plane does in an event, and the session it does it for. -/
def FineServer.dataPlane (S : VpnServer Conn) (f : FineServer Conn) :
    FineEvent Conn → Option (Session Conn × List Effect)
  | .goOn k env =>
    match f.errands[k]? with
    | some (some (.opened ref pkt plaintext)) =>
      (f.locked ref env).map fun w => (w.sess, (handOver pkt plaintext w).2.log)
    | some (some (.found addr ref ipPkt)) =>
      if f.held ref then none
      else (f.locked ref env).map fun w => (w.sess, (step S addr w (.tun env ipPkt)).log)
    | _ => none
  | .server (.visit _ ref _ (.data env pkt)) =>
    if f.held ref then none
    else (f.locked ref env).map fun w => (w.sess, (decryptLocked S pkt w).2.log)
  | .server (.visit _ _ _ (.tun ..)) => none
  | .server (.visit addr ref env v) =>
    if f.held ref || !v.isVisit then none
    else (f.locked ref env).map fun w => (w.sess, (step S addr w v).log)
  | _ => none

/-- Whatever is handed to the TUN or sealed at this moment is so for an established session. -/
def FineServer.LiveOnly (f : FineServer Conn) (S : VpnServer Conn) (e : FineEvent Conn) : Prop :=
  ∀ x ∈ f.dataPlane S e, x.2.any Effect.isDataPlane = true → x.1.state = .established

/-- The session is not one whose client has not been sent its configuration yet, or has left. -/
def FineServer.Serving (f : FineServer Conn) (ref : Ref) : Prop :=
  ∀ o ∈ f.heap[ref]?, o.sess.state ≠ .pushPending ∧ o.sess.state ≠ .closed

/-- Plaintext is handed over, and packets from the TUN are sealed, at the right time. -/
def FineServer.Timely (f : FineServer Conn) : FineEvent Conn → Prop
  | .goOn k env =>
    match f.errands[k]? with
    | some (some (.opened ref ..)) => env.tunOpen = true → f.Serving ref
    | some (some (.found _ ref _)) => f.held ref = false → f.Serving ref
    | _ => True
  | _ => True

instance (S : VpnServer Conn) (f : FineServer Conn) (e : FineEvent Conn) :
    Decidable (f.LiveOnly S e) :=
  inferInstanceAs (Decidable (∀ x ∈ f.dataPlane S e, _ → _))

instance (f : FineServer Conn) (ref : Ref) : Decidable (f.Serving ref) :=
  inferInstanceAs (Decidable (∀ o ∈ f.heap[ref]?, _ ∧ _))

instance (f : FineServer Conn) (e : FineEvent Conn) : Decidable (f.Timely e) := by
  unfold FineServer.Timely
  split
  · split <;> infer_instance
  · infer_instance

section Live

variable {S : VpnServer Conn} {addr : SocketAddr} {w : World Conn} {v : Event Conn}
  {f : FineServer Conn}

lemma dataPlane_cases (hw : w.log = [])
    (h : (step S addr w v).log.any Effect.isDataPlane = true) :
    (∃ i slot, w.sess.slots i = some slot) ∧
      ((∃ env pkt, v = .data env pkt) ∨ (∃ env pkt, v = .tun env pkt) ∨
        w.sess.state = .established) := by
  let f : Effect → Option Effect := fun e => if e.isDataPlane then some e else none
  have hf (e : Effect) (he : e.ofEvent = false) : f e = none := by
    cases e <;> first | rfl | cases he
  obtain ⟨es, hown, hlog⟩ := (step_reacts S addr w v).own hf
  have hsome : es.filterMap f ≠ [] := by
    obtain ⟨x, hx, hplane⟩ := List.any_eq_true.mp h
    intro hnil
    rw [hw, hnil] at hlog
    have hmem : x ∈ (step S addr w v).abs.log.filterMap f :=
      List.mem_filterMap.mpr ⟨x, hx, by simp [f, hplane]⟩
    rw [hlog] at hmem
    cases hmem
  have hack (ctrl : ControlPacket) : (ackOf ctrl).filterMap f = [] := by
    unfold ackOf
    split <;> rfl
  cases hown with
  | rejected | refused | idle => exact absurd rfl hsome
  | fed =>
    rw [List.filterMap_append, hack] at hsome
    exact absurd rfl hsome
  | heard => exact absurd (hack _) hsome
  | opened => simp [f, Effect.isDataPlane] at hsome
  | forwarded dp i slot plaintext ho => exact ⟨⟨i, slot, ho.found⟩, .inl ⟨_, _, rfl⟩⟩
  | tun slot hs => exact ⟨⟨_, slot, hs⟩, .inr (.inl ⟨_, _, rfl⟩)⟩
  | @ping env slot hs =>
    refine ⟨⟨_, slot, hs⟩, .inr (.inr ?_)⟩
    -- the ping task looks at the state itself
    by_contra hst
    have hidle : step S addr w (.ping env) = { w with env } := by
      show (pingTick S { w with env }).2 = _
      unfold pingTick
      rw [Proc.get_bind, if_pos (.inl hst)]
      rfl
    rw [hidle] at h
    simp [hw] at h

lemma FineServer.Serving.established {ref : Ref} {env : Env Conn} (hs : f.Serving ref)
    (hw : f.locked ref env = some w) (hkeyed : w.sess.state.unkeyed = false) :
    w.sess.state = .established := by
  obtain ⟨o, ho, rfl⟩ := Option.map_eq_some_iff.mp hw
  obtain ⟨hp, hc⟩ := hs o ho
  revert hp hc hkeyed
  show o.sess.state.unkeyed = false → _ → _ → o.sess.state = _
  cases o.sess.state <;> simp [State.unkeyed]

lemma unkeyed_of_reached (h : w.sess.Reached 3) : w.sess.state.unkeyed = false := by
  have hrank := h.2
  revert hrank
  cases w.sess.state <;> simp [State.rank, State.unkeyed]

lemma tunOpen_of_handOver {pkt plaintext : Bytes} (hw : w.log = [])
    (h : (handOver pkt plaintext w).2.log.any Effect.isDataPlane = true) :
    w.env.tunOpen = true := by
  by_contra hopen
  have hsame : (handOver pkt plaintext w).2 = w := by
    unfold handOver
    rw [get_bind, if_neg hopen]
    split <;> rfl
  rw [hsame, hw] at h
  cases h

lemma FineServer.InShape.live_handOver (h : f.InShape) {k : ℕ} {ref : Ref} {env : Env Conn}
    {pkt plaintext : Bytes} (hk : f.errands[k]? = some (some (.opened ref pkt plaintext)))
    (hw : f.locked ref env = some w) (ht : env.tunOpen = true → f.Serving ref)
    (hplane : (handOver pkt plaintext w).2.log.any Effect.isDataPlane = true) :
    w.sess.state = .established := by
  obtain ⟨o, ho, hwo⟩ := Option.map_eq_some_iff.mp hw
  subst hwo
  obtain ⟨o', ho', hreached⟩ := h.keyed _ (List.mem_of_getElem? hk) ref rfl
  cases ho.symm.trans ho'
  -- the session may have been closed since the packet was opened: `ht` is about this moment
  exact (ht (tunOpen_of_handOver rfl hplane)).established hw (unkeyed_of_reached hreached)

lemma FineServer.InShape.live_serving (h : f.InShape) {ref : Ref} {env : Env Conn}
    (hw : f.locked ref env = some w) (hs : f.Serving ref)
    (hplane : (step S addr w v).log.any Effect.isDataPlane = true) :
    w.sess.state = .established := by
  obtain ⟨⟨i, slot, hslot⟩, -⟩ := dataPlane_cases (locked_log hw) hplane
  have hshaped : w.sess.Shaped := by
    obtain ⟨o, ho, rfl⟩ := Option.map_eq_some_iff.mp hw
    exact h.shaped o (List.mem_of_getElem? ho)
  -- a slot to seal with exists only behind the key exchange
  have hkeyed : w.sess.state.unkeyed = false := by
    rcases hshaped.keyed hslot with hst | hst | hst <;> rw [hst] <;> rfl
  exact hs.established hw hkeyed

lemma FineServer.live_idle {ref : Ref} {env : Env Conn} {x : Session Conn × List Effect}
    (hv : ∀ env pkt, v ≠ .data env pkt) (hv' : ∀ env pkt, v ≠ .tun env pkt)
    (hx : (if f.held ref || !v.isVisit then none
      else (f.locked ref env).map fun w => (w.sess, (step S addr w v).log)) = some x)
    (hplane : x.2.any Effect.isDataPlane = true) : x.1.state = .established := by
  split at hx
  · cases hx
  obtain ⟨w, hw, rfl⟩ := Option.map_eq_some_iff.mp hx
  rcases (dataPlane_cases (locked_log hw) hplane).2 with ⟨_, _, rfl⟩ | ⟨_, _, rfl⟩ | hst
  · exact absurd rfl (hv _ _)
  · exact absurd rfl (hv' _ _)
  · exact hst

lemma not_isDataPlane_decryptLocked (hw : w.log = []) (pkt : Bytes) :
    (decryptLocked S pkt w).2.log.any Effect.isDataPlane = false := by
  rcases decryptLocked_cases (S := S) w pkt with ⟨e, hr⟩ | ⟨dp, i, slot, plaintext, -, hr⟩ <;>
    simp [hr, hw, World.opened, Effect.isDataPlane]

lemma FineServer.InShape.liveOnly {e : FineEvent Conn} (h : f.InShape) (ht : f.Timely e) :
    f.LiveOnly S e := by
  intro x hx hplane
  cases e with
  | tun => cases hx
  | goOn k env =>
    simp only [FineServer.dataPlane] at hx
    simp only [FineServer.Timely] at ht
    rcases hk : f.errands[k]? with _ | _ | er <;> rw [hk] at hx ht
    · cases hx
    · cases hx
    cases er with
    | push | routed => cases hx
    | opened ref pkt plaintext =>
      obtain ⟨w, hw, rfl⟩ := Option.map_eq_some_iff.mp hx
      exact h.live_handOver hk hw ht hplane
    | found addr ref ipPkt =>
      dsimp only at hx ht
      split at hx
      · cases hx
      rename_i hheld
      obtain ⟨w, hw, rfl⟩ := Option.map_eq_some_iff.mp hx
      exact h.live_serving hw (ht (Bool.eq_false_iff.mpr hheld)) hplane
  | server e =>
    cases e with
    | control | advance | reap | close | forward => cases hx
    | visit addr ref env v =>
      cases v with
      | tun => cases hx
      | data env' pkt =>
        simp only [FineServer.dataPlane] at hx
        split at hx
        · cases hx
        obtain ⟨w, hw, rfl⟩ := Option.map_eq_some_iff.mp hx
        rw [not_isDataPlane_decryptLocked (locked_log hw)] at hplane
        cases hplane
      | _ => exact FineServer.live_idle (by simp) (by simp) hx hplane

end Live

/-- **The data plane of established sessions.** In every run of the server in which queuing
plaintext does not fail, and in which plaintext is handed over and packets are sealed in time, both
are done for established sessions only. -/
theorem dataPlane_established (S : VpnServer Conn) (p : Pools) (es : List (FineEvent Conn))
    (hS : S.Queues) (ht : AllMeet (fine S) FineServer.Timely (FineServer.new p) es) :
    ∀ x ∈ trace (fine S) (FineServer.new p) es, x.1.LiveOnly S x.2 := by
  intro x hx
  have hnew : (FineServer.new p : FineServer Conn).InShape :=
    ⟨fun _ ho => absurd ho List.not_mem_nil, fun _ her => absurd her List.not_mem_nil⟩
  obtain ⟨hshape, htimely⟩ := trace_keeps (fun f e h _ => h.fine hS e) hnew ht x hx
  exact hshape.liveOnly htimely

def clientExchange : ControlPacket := clientPacket .controlV1 0 1 (clientKm2 3)

def clientExit : ControlPacket := clientPacket .controlV1 0 2 (Bytes.ascii "EXIT" ++ [0])

/-- A control packet arrives as the task `i`, and is handled. -/
def handling (addr : SocketAddr) (ctrl : ControlPacket) (i : ℕ) : List (ServerEvent Plain) :=
  .control addr ctrl none (.udp addr) :: List.replicate 3 (.advance i (plainEnv 1))

def connected : List (FineEvent Plain) :=
  (connecting (plainEnv 1) plainAddr (.udp plainAddr) 0 ++ requesting plainAddr 1).map .server ++
    List.replicate 4 (.goOn 0 (plainEnv 1))

def opening : FineEvent Plain :=
  .server (.visit plainAddr 0 (plainEnv 1) (.data (plainEnv 1) (clientData 1 [0x45, 0])))

/-- A client's data, both ways, while it is connected. -/
theorem dataPlane_established_inTime :
    let es := connected ++ [opening, .goOn 1 (plainEnv 1), .tun tunPacket, .goOn 2 (plainEnv 1),
      .goOn 2 (plainEnv 1)]
    ((trace (fine plainServer) (FineServer.new plainPools) es).filterMap
      fun x => x.1.dataPlane plainServer x.2).map
      (fun x => (x.1.state, x.2.any Effect.isDataPlane)) =
      [(.established, false), (.established, true), (.established, true)] ∧
    ∀ x ∈ trace (fine plainServer) (FineServer.new plainPools) es, x.1.LiveOnly plainServer x.2 :=
  ⟨by decide +kernel,
    dataPlane_established plainServer plainPools _ (fun _ _ => rfl) (by decide +kernel)⟩

/-- A client's data is handed to the TUN before the client has asked for its configuration, and
after its exit message, whether or not it was opened before; and behind that message packets from
the TUN are still sealed for it. -/
theorem dataPlane_early_and_late :
    let f (es : List (FineEvent Plain)) := run (fine plainServer) (FineServer.new plainPools) es
    let pending : List (FineEvent Plain) := (connecting (plainEnv 1) plainAddr (.udp plainAddr) 0 ++
      handling plainAddr clientExchange 1).map .server
    let leaving : List (FineEvent Plain) := (handling plainAddr clientExit 2).map .server
    ((f pending).routeData (clientData 1 [0x45, 0]) = some 0 ∧
      ¬ (f (pending ++ [opening])).LiveOnly plainServer (.goOn 0 (plainEnv 1))) ∧
    ((f (connected ++ leaving)).routeData (clientData 1 [0x45, 0]) = some 0 ∧
      ¬ (f (connected ++ leaving ++ [opening])).LiveOnly plainServer (.goOn 1 (plainEnv 1))) ∧
    ¬ (f (connected ++ [opening] ++ leaving)).LiveOnly plainServer (.goOn 1 (plainEnv 1)) ∧
    ¬ (f (connected ++ leaving ++ [.tun tunPacket, .goOn 1 (plainEnv 1)])).LiveOnly plainServer
      (.goOn 1 (plainEnv 1)) := by
  decide +kernel

end Javs
