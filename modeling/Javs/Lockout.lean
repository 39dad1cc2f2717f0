import Javs.Stamp
import Javs.Network

/-!
A client that starts again, and the session it left behind.

A `HARD_RESET` opens a session only if none is filed under its address. Otherwise it is a
control packet like any other to the session that is there: its opcode is not handled, but the
session counts as heard of. So a client that has lost its session, and says so again and again
from the same address, keeps the reaper from evicting the session that shuts it out.
-/

namespace Javs

open Lib

variable {Conn : Type}

/-! ### Replies -/

/-- The task that an event advances. -/
def Server.actor (s : Server Conn) : ServerEvent Conn → Option Task
  | .advance i _ => s.tasks[i]?.join
  | _ => none

variable (S : VpnServer Conn) (addr : SocketAddr)

/-- The replies to a `HARD_RESET` that an event sends to the peer at `addr`. -/
def Server.greets (s : Server Conn) (e : ServerEvent Conn) : List ControlPacket :=
  match s.opening e, s.worksOn e with
  | some op, _ => if (s.actor e).any (·.addr = addr) then greetings (started S op).log else []
  | none, some (a, w, v) => if a = addr then greetings (step S a w v).log else []
  | none, none => []

def Answered (sid : SessionId) (s : Server Conn) (es : List (ServerEvent Conn)) : Prop :=
  ∃ x ∈ trace (serve S) s es, ∃ pkt ∈ x.1.greets S addr x.2, pkt.remoteSessionId = some sid

/-- A `HARD_RESET` with the id `sid` had found no session at `addr`; a TLS connection is made for
it, and the reply can be sent. -/
def Server.Admits (s : Server Conn) (sid : SessionId) (e : ServerEvent Conn) : Prop :=
  ∃ op, s.opening e = some op ∧ (s.actor e).any (·.addr = addr) = true ∧
    op.ctrl.sessionId = sid ∧ op.env.sends.head? ≠ some false

variable {S addr} {s : Server Conn} {e : ServerEvent Conn}

lemma greetings_step (a : SocketAddr) (w : World Conn) (v : Event Conn) :
    greetings (step S a w v).log = greetings w.log := by
  have hown (ho : v.isOwn = true) : greetings (step S a w v).log = greetings w.log :=
    congrArg (·.2) (step_stamp S a w ho)
  cases v with
  | control env ctrl replayPid => exact congrArg (·.2) (step_control_stamp S a w env ctrl replayPid)
  | data env pkt =>
    rcases step_data_stamp S a w env pkt with h | h
    · exact congrArg (·.2) h
    · exact congrArg (·.2) h
  | tun | ping | rekey | retransmit | shutdown | shared => exact hown rfl

lemma greets_eq (s : Server Conn) (e : ServerEvent Conn) :
    s.greets S addr e = match s.opening e with
      | some op => if (s.actor e).any (·.addr = addr) ∧ op.env.sends.head? ≠ some false then
          [op.reply] else []
      | none => [] := by
  unfold Server.greets
  rcases s.opening e with _ | op
  · rcases hw : s.worksOn e with _ | ⟨a, w, v⟩
    · rfl
    · obtain ⟨-, -, -, hlog⟩ := worksOn_sess hw
      dsimp only
      rw [greetings_step, hlog]
      split <;> rfl
  · have hlog : greetings (started S op).log = _ := congrArg (·.2) (started_stamp S op)
    dsimp only
    rw [hlog]
    by_cases ha : (s.actor e).any (·.addr = addr) = true <;>
      by_cases hf : op.env.sends.head? = some false <;> simp [ha, hf]

lemma answered_iff {sid : SessionId} {es : List (ServerEvent Conn)} :
    Answered S addr sid s es ↔ ∃ x ∈ trace (serve S) s es, x.1.Admits addr sid x.2 := by
  unfold Answered Server.Admits
  refine exists_congr fun x => and_congr_right fun _ => ?_
  rw [greets_eq]
  rcases x.1.opening x.2 with _ | op
  · simp
  · have hid : op.reply.remoteSessionId = some op.ctrl.sessionId := rfl
    by_cases h : (x.1.actor x.2).any (·.addr = addr) = true ∧ op.env.sends.head? ≠ some false
    · simp [h, hid]
    · simp only [if_neg h, List.not_mem_nil, false_and, exists_false, Option.some.injEq,
        exists_eq_left', false_iff]
      tauto

/-! ### A client that knocks -/

/-- A task in this stage is not about to change the entry of its address, which is `ref`. -/
def Stage.Spares (ref : Ref) : Stage → Prop
  | .arrived .. | .lookup .. | .visit => True
  | .locked r .. | .reap r => r = ref
  | _ => False

/-- When a packet of the client is handled. -/
def Event.heardAt : Event Conn → Option ℕ
  | .control env .. | .data env _ => some env.now
  | _ => none

/-- The clock does not run backwards: no packet is handled at a time before that at which its
session was last heard of. -/
def OnTime (s : Server Conn) (e : ServerEvent Conn) : Prop :=
  ∀ x ∈ s.worksOn e, ∀ t ∈ x.2.2.heardAt, x.2.1.sess.lastSeen ≤ t

instance (s : Server Conn) (e : ServerEvent Conn) : Decidable (OnTime s e) :=
  inferInstanceAs (Decidable (∀ x ∈ s.worksOn e, ∀ t ∈ x.2.2.heardAt, x.2.1.sess.lastSeen ≤ t))

variable (S addr)

/-- The time at which the event handles a `HARD_RESET` from `addr`, for the session it found. -/
def Server.knock (s : Server Conn) (e : ServerEvent Conn) : Option ℕ :=
  match e, s.actor e with
  | .advance _ env, some ⟨a, .locked _ ctrl _⟩ =>
    if a = addr ∧ ctrl.op.isHardResetClient then some env.now else none
  | _, _ => none

/-- The time by which the reaper, in this event, judges the session at `addr`. -/
def Server.judgement (s : Server Conn) (e : ServerEvent Conn) : Option ℕ :=
  match e, s.actor e with
  | .advance _ env, some ⟨a, .reap _⟩ => if a = addr then some env.now else none
  | _, _ => none

/-- Whenever the reaper judges the session at `addr`, the last `HARD_RESET` from there has been
handled less than the keepalive timeout before. The first argument is the time of the last one
so far. -/
def Paced : Option ℕ → Server Conn → List (ServerEvent Conn) → Prop
  | _, _, [] => True
  | last, s, e :: es =>
    (∀ now ∈ s.judgement addr e,
      ∃ t ∈ last, now - t < S.cfg.keepaliveTimeout.toNat * 1000) ∧
      Paced ((s.knock addr e).or last) (serve S s e) es

instance Paced.decidable : (last : Option ℕ) → (s : Server Conn) →
    (es : List (ServerEvent Conn)) → Decidable (Paced S addr last s es)
  | _, _, [] => instDecidableTrue
  | last, s, e :: es =>
    haveI := Paced.decidable ((s.knock addr e).or last) (serve S s e) es
    inferInstanceAs (Decidable (_ ∧ _))

/-- The session `ref` is filed under the address, and no task is about to change that: it is not
being evicted or closed, nor another one created. -/
structure Filed (ref : Ref) (s : Server Conn) : Prop where
  held : s.sessions addr = some ref
  settled : ∀ t, some t ∈ s.tasks → t.addr = addr → t.stage.Spares ref

/-- A client sends one `HARD_RESET` after the other from an address whose session is `ref`. -/
structure Knocking (ref : Ref) (s : Server Conn) (es : List (ServerEvent Conn)) : Prop where
  filed : Filed addr ref s
  there : (s.heap[ref]?).isSome
  /-- No TCP stream of the address ends. -/
  stays : ∀ e ∈ es, e ≠ .close addr
  clock : AllMeet (serve S) OnTime s es
  paced : Paced S addr none s es

/-- The entry stays, and the session was last heard of no earlier than at `last`. -/
structure Shut (ref : Ref) (last : Option ℕ) (s : Server Conn) : Prop extends
    Filed addr ref s where
  seen : ∃ o, s.heap[ref]? = some o ∧ ∀ t ∈ last, t ≤ o.sess.lastSeen

/-! ### What one event does -/

section Step

variable {S addr} {ref : Ref} {last : Option ℕ} {t : Task} {i : ℕ} {env : Env Conn}

lemma Acts.sessions_other {s' : Server Conn} {x : Option Stage} (h : Acts s t s' x)
    (hne : t.addr ≠ addr) : s'.sessions addr = s.sessions addr := by
  cases h with
  | closed ht r hs => exact Function.update_of_ne (Ne.symm hne) _ _
  | op ht =>
    rename_i r op todo
    cases op with
    | insertSession | removeSession => exact Function.update_of_ne (Ne.symm hne) _ _
    | _ => rfl
  | _ => rfl

lemma Acts.heap_of_not_locked {s' : Server Conn} {x : Option Stage} (h : Acts s t s' x)
    (hst : ∀ r ctrl replayPid, t.stage ≠ .locked r ctrl replayPid) :
    ∃ more, s'.heap = s.heap ++ more := by
  cases h with
  | created ht next o hh ho => exact ⟨[o], rfl⟩
  | handled ht => exact absurd ht (hst _ _ _)
  | op ht =>
    rename_i r op todo
    exact ⟨[], by cases op <;> exact (List.append_nil _).symm⟩
  | _ => exact ⟨[], (List.append_nil _).symm⟩

lemma lastSeen_step (a : SocketAddr) {w : World Conn} {v : Event Conn}
    (h : ∀ t ∈ v.heardAt, w.sess.lastSeen ≤ t) :
    w.sess.lastSeen ≤ (step S a w v).sess.lastSeen := by
  have hown (ho : v.isOwn = true) : w.sess.lastSeen ≤ (step S a w v).sess.lastSeen :=
    (congrArg (·.1.lastSeen) (step_stamp S a w ho)).ge
  cases v with
  | control env ctrl replayPid =>
    have hseen : (step S a w (.control env ctrl replayPid)).sess.lastSeen = env.now :=
      congrArg (·.1.lastSeen) (step_control_stamp S a w env ctrl replayPid)
    rw [hseen]
    exact h _ rfl
  | data env pkt =>
    rcases step_data_stamp S a w env pkt with hs | hs
    · exact (congrArg (·.1.lastSeen) hs).ge
    · have hseen : (step S a w (.data env pkt)).sess.lastSeen = env.now :=
        congrArg (·.1.lastSeen) hs
      rw [hseen]
      exact h _ rfl
  | tun | ping | rekey | retransmit | shutdown | shared => exact hown rfl

lemma underLock_seen {a : SocketAddr} {r : Ref} {v : Event Conn} {o : Object Conn}
    (ho : s.heap[ref]? = some o)
    (h : ∀ w, s.locked r env = some w → ∀ t ∈ v.heardAt, w.sess.lastSeen ≤ t) :
    ∃ o', (underLock S s a r env v).heap[ref]? = some o' ∧
      o.sess.lastSeen ≤ o'.sess.lastSeen := by
  rcases hr : s.heap[r]? with _ | x
  · rw [underLock_of_none hr]
    exact ⟨o, ho, le_rfl⟩
  rw [underLock_of_some hr]
  by_cases hrr : r = ref
  · subst hrr
    cases ho.symm.trans hr
    have hlt := (List.getElem?_eq_some_iff.mp hr).1
    refine ⟨_, List.getElem?_set_self hlt, ?_⟩
    exact lastSeen_step a (h _ (by rw [Server.locked, hr]; rfl))
  · exact ⟨o, (List.getElem?_set_ne hrr).trans ho, le_rfl⟩

lemma serve_seen {o : Object Conn} (ho : s.heap[ref]? = some o) (h : OnTime s e) :
    ∃ o', (serve S s e).heap[ref]? = some o' ∧ o.sess.lastSeen ≤ o'.sess.lastSeen := by
  have hlocked (a : SocketAddr) {r : Ref} {env : Env Conn} {v : Event Conn} (w : World Conn)
      (hw : s.locked r env = some w)
      (hon : s.worksOn e = (s.locked r env).map (a, ·, v)) :
      ∀ t ∈ v.heardAt, w.sess.lastSeen ≤ t :=
    h (a, w, v) (by rw [hon, hw]; rfl)
  cases e with
  | control | reap | close => exact ⟨o, ho, le_rfl⟩
  | advance i env =>
    simp only [serve]
    rcases ht : s.tasks[i]? with _ | _ | t
    · exact ⟨o, ho, le_rfl⟩
    · exact ⟨o, ho, le_rfl⟩
    -- only a task that holds the lock works on a session; the others at most create one
    by_cases hst : ∃ r ctrl replayPid, t.stage = .locked r ctrl replayPid
    · obtain ⟨r, ctrl, replayPid, hst⟩ := hst
      obtain ⟨a, st⟩ := t
      cases hst
      refine underLock_seen ho fun w hw => hlocked a w hw ?_
      simp only [Server.worksOn, ht]
    · obtain ⟨more, hmore⟩ := (next_acts (S := S) env s t).heap_of_not_locked
        fun r ctrl replayPid h => hst ⟨r, ctrl, replayPid, h⟩
      refine ⟨o, ?_, le_rfl⟩
      dsimp only
      rw [hmore, List.getElem?_append_left (List.getElem?_eq_some_iff.mp ho).1]
      exact ho
  | forward env ipPkt =>
    simp only [serve]
    rcases ht : s.forwardTarget ipPkt with _ | ⟨a, r⟩
    · exact ⟨o, ho, le_rfl⟩
    · refine underLock_seen ho fun w hw => hlocked a w hw ?_
      simp only [Server.worksOn, ht]
  | visit a r env v =>
    simp only [serve]
    split
    · rename_i hv
      refine underLock_seen ho fun w hw => hlocked a w hw ?_
      simp only [Server.worksOn, hv, if_true]
    · exact ⟨o, ho, le_rfl⟩

lemma knock_seen {now : ℕ} (h : Shut addr ref last s) (hk : s.knock addr e = some now) :
    ∃ o, (serve S s e).heap[ref]? = some o ∧ o.sess.lastSeen = now := by
  obtain ⟨o, ho, -⟩ := h.seen
  unfold Server.knock at hk
  split at hk
  · rename_i i env a r ctrl replayPid ht
    split at hk
    · rename_i ha
      obtain ⟨rfl, -⟩ := ha
      cases hk
      have hi : s.tasks[i]? = some (some ⟨a, .locked r ctrl replayPid⟩) :=
        Option.join_eq_some_iff.mp ht
      -- a task at this address that has got past the look-up holds the filed session
      obtain rfl : r = ref := h.settled _ (List.mem_of_getElem? hi) rfl
      have hlt := (List.getElem?_eq_some_iff.mp ho).1
      have hseen := step_control_stamp S a ⟨o.sess, s.tab, env, []⟩ env ctrl replayPid
      refine ⟨⟨o.home, (step S a ⟨o.sess, s.tab, env, []⟩ (.control env ctrl replayPid)).sess⟩, ?_,
        congrArg (·.1.lastSeen) hseen⟩
      simp only [serve, hi, Task.next, underLock_of_some ho]
      exact List.getElem?_set_self hlt
    · cases hk
  · cases hk

lemma Shut.next (h : Shut addr ref last s) (hi : s.tasks[i]? = some (some t)) (ha : t.addr = addr)
    (hpace : ∀ now ∈ s.judgement addr (.advance i env),
      ∃ t ∈ last, now - t < S.cfg.keepaliveTimeout.toNat * 1000) :
    (t.next S env s).1.sessions addr = some ref ∧ ∀ st ∈ (t.next S env s).2, st.Spares ref := by
  have hspares := h.settled t (List.mem_of_getElem? hi) ha
  obtain ⟨a, st⟩ := t
  obtain rfl : a = addr := ha
  obtain ⟨o, ho, hlast⟩ := h.seen
  cases st with
  | arrived ctrl replayPid transport =>
    simp only [Task.next, h.held, Option.isNone_some, Bool.false_eq_true, and_false, if_false]
    exact ⟨trivial, fun st hst => by cases hst; trivial⟩
  | lookup ctrl replayPid =>
    simp only [Task.next, h.held, Option.map_some]
    exact ⟨trivial, fun st hst => by cases hst; rfl⟩
  | locked r ctrl replayPid =>
    obtain rfl : r = ref := hspares
    simp only [Task.next, underLock_of_some ho]
    exact ⟨h.held, fun st hst => by cases hst⟩
  | visit =>
    simp only [Task.next, h.held, Option.map_some]
    exact ⟨trivial, fun st hst => by cases hst; rfl⟩
  | reap r =>
    obtain rfl : r = ref := hspares
    -- the reaper of this session read the clock soon after the client was last heard
    obtain ⟨t, ht, hnow⟩ := hpace env.now (by simp [Server.judgement, Server.actor, hi])
    have hseen := hlast t ht
    have hidle : ¬ env.now - o.sess.lastSeen ≥ S.cfg.keepaliveTimeout.toNat * 1000 := by omega
    simp only [Task.next, ho, if_neg hidle]
    exact ⟨h.held, fun st hst => by cases hst⟩
  | create | closing | teardown | ops => exact hspares.elim

lemma Filed.spawn (h : Filed addr ref s) {a : SocketAddr} {st : Stage}
    (hst : a = addr → st.Spares ref) : Filed addr ref (s.spawn a st) := by
  refine ⟨h.held, fun t ht => ?_⟩
  rcases List.mem_append.mp ht with ht | ht
  · exact h.settled t ht
  · cases List.mem_singleton.mp ht
    exact hst

lemma Filed.underLock (h : Filed addr ref s) (a : SocketAddr) (r : Ref) (env : Env Conn)
    (v : Event Conn) : Filed addr ref (underLock S s a r env v) := by
  rcases hr : s.heap[r]? with _ | x
  · rw [underLock_of_none hr]
    exact h
  · rw [underLock_of_some hr]
    exact ⟨h.held, h.settled⟩

lemma Shut.advance (h : Shut addr ref last s) (hi : s.tasks[i]? = some (some t))
    (hpace : ∀ now ∈ s.judgement addr (.advance i env),
      ∃ t ∈ last, now - t < S.cfg.keepaliveTimeout.toNat * 1000) :
    Filed addr ref { (t.next S env s).1 with
      tasks := s.tasks.set i ((t.next S env s).2.map (⟨t.addr, ·⟩)) } := by
  have htasks (t' : Task) (ht' : some t' ∈ s.tasks.set i ((t.next S env s).2.map (⟨t.addr, ·⟩))) :
      some t' ∈ s.tasks ∨ t'.addr = t.addr ∧ t'.stage ∈ (t.next S env s).2 := by
    rcases List.mem_or_eq_of_mem_set ht' with hmem | hnew
    · exact .inl hmem
    · obtain ⟨st, hst, rfl⟩ := Option.map_eq_some_iff.mp hnew.symm
      exact .inr ⟨rfl, hst⟩
  by_cases ha : t.addr = addr
  · obtain ⟨hheld, hspares⟩ := h.next hi ha hpace
    refine ⟨hheld, fun t' ht' hta => ?_⟩
    rcases htasks t' ht' with hmem | ⟨-, hst⟩
    · exact h.settled t' hmem hta
    · exact hspares _ hst
  · refine ⟨((next_acts env s t).sessions_other ha).trans h.held, fun t' ht' hta => ?_⟩
    rcases htasks t' ht' with hmem | ⟨haddr, -⟩
    · exact h.settled t' hmem hta
    · exact absurd (haddr.symm.trans hta) ha

lemma Shut.filed (h : Shut addr ref last s) (hstays : e ≠ .close addr)
    (hpace : ∀ now ∈ s.judgement addr e,
      ∃ t ∈ last, now - t < S.cfg.keepaliveTimeout.toNat * 1000) :
    Filed addr ref (serve S s e) := by
  have hfiled := h.toFiled
  cases e with
  | control a ctrl replayPid transport => exact hfiled.spawn fun _ => trivial
  | reap a => exact hfiled.spawn fun _ => trivial
  | close a => exact hfiled.spawn fun ha => absurd (congrArg _ ha) hstays
  | advance i env =>
    simp only [serve]
    rcases hi : s.tasks[i]? with _ | _ | t
    · exact hfiled
    · exact hfiled
    · exact h.advance hi hpace
  | forward env ipPkt =>
    simp only [serve]
    split
    · exact hfiled
    · exact hfiled.underLock ..
  | visit a r env v =>
    simp only [serve]
    split
    · exact hfiled.underLock ..
    · exact hfiled

/-- **One event.** The entry stays, and the session has been heard of since the last knock. -/
theorem Shut.event (h : Shut addr ref last s) (hstays : e ≠ .close addr) (hclock : OnTime s e)
    (hpace : ∀ now ∈ s.judgement addr e,
      ∃ t ∈ last, now - t < S.cfg.keepaliveTimeout.toNat * 1000) :
    Shut addr ref ((s.knock addr e).or last) (serve S s e) := by
  refine ⟨h.filed hstays hpace, ?_⟩
  rcases hk : s.knock addr e with _ | now
  · obtain ⟨o, ho, hlast⟩ := h.seen
    obtain ⟨o', ho', hle⟩ := serve_seen (S := S) ho hclock
    exact ⟨o', ho', fun t ht => (hlast t ht).trans hle⟩
  · obtain ⟨o', ho', hnow⟩ := knock_seen (S := S) h hk
    exact ⟨o', ho', fun t ht => by cases ht; exact hnow.ge⟩

/-- **A whole run.** -/
theorem Shut.run {es : List (ServerEvent Conn)} (h : Shut addr ref last s)
    (hstays : ∀ e ∈ es, e ≠ .close addr) (hclock : AllMeet (serve S) OnTime s es)
    (hpaced : Paced S addr last s es) :
    (∀ x ∈ trace (serve S) s es, Filed addr ref x.1) ∧ Filed addr ref (run (serve S) s es) := by
  induction es generalizing s last with
  | nil => exact ⟨by simp, h.toFiled⟩
  | cons e es ih =>
    obtain ⟨hc, hcs⟩ := allMeet_cons.mp hclock
    have hnext := h.event (hstays e List.mem_cons_self) hc hpaced.1
    obtain ⟨htrace, hend⟩ := ih hnext (fun e he => hstays e (List.mem_cons_of_mem _ he)) hcs
      hpaced.2
    refine ⟨fun x hx => ?_, hend⟩
    rcases List.mem_cons.mp hx with rfl | hx
    · exact h.toFiled
    · exact htrace x hx

lemma Filed.not_admits (h : Filed addr ref s) (sid : SessionId) : ¬ s.Admits addr sid e := by
  rintro ⟨op, hop, hactor, -, -⟩
  cases e with
  | advance i env =>
    simp only [Server.opening] at hop
    split at hop
    · rename_i a ctrl replayPid transport conn hi hconn
      have ha : a = addr := by simpa [Server.actor, hi] using hactor
      exact h.settled _ (List.mem_of_getElem? hi) ha
    · cases hop
  | _ => cases hop

end Step

/-- **A reply is sent to a restarted client exactly if** one of its `HARD_RESET`s has found no
session at the address, and can be answered. While the client knocks more often than sessions
time out, that does not happen: the session that it left behind stays. -/
theorem knocking_unanswered (sid : SessionId) (s : Server Conn) (es : List (ServerEvent Conn)) :
    (Answered S addr sid s es ↔ ∃ x ∈ trace (serve S) s es, x.1.Admits addr sid x.2) ∧
    ∀ ref, Knocking S addr ref s es →
      ¬ Answered S addr sid s es ∧ (run (serve S) s es).sessions addr = some ref := by
  refine ⟨answered_iff, fun ref h => ?_⟩
  obtain ⟨o, ho⟩ := Option.isSome_iff_exists.mp h.there
  have hshut : Shut addr ref none s := ⟨h.filed, o, ho, by simp⟩
  obtain ⟨htrace, hend⟩ := hshut.run h.stays h.clock h.paced
  refine ⟨fun hanswered => ?_, hend.held⟩
  obtain ⟨x, hx, hadmits⟩ := answered_iff.mp hanswered
  exact (htrace x hx).not_admits sid hadmits

/-! ### A restarted client -/

def clientRestart : ControlPacket := { clientReset with sessionId := 6 }

def plainAt (now : ℕ) : Env Plain := { plainEnv 1 with now }

/-- At one time the client sends its `HARD_RESET`, as the task `i`, and the reaper comes by. -/
def knockAt (i now : ℕ) : List (ServerEvent Plain) :=
  .control plainAddr clientRestart none (.udp plainAddr) ::
    List.replicate 3 (.advance i (plainAt now)) ++
    .reap plainAddr :: List.replicate 2 (.advance (i + 1) (plainAt now))

def beforeRestart : Server Plain :=
  run (serve plainServer) (Server.new plainPools)
    (connecting (plainEnv 1) plainAddr (.udp plainAddr) 0)

/-- For twice the keepalive timeout the client sends a `HARD_RESET` every minute. -/
def restarting : List (ServerEvent Plain) :=
  knockAt 1 60000 ++ knockAt 3 120000 ++ knockAt 5 180000 ++ knockAt 7 240000

lemma knocking_restarting : Knocking plainServer plainAddr 0 beforeRestart restarting where
  filed := by
    have hidle : beforeRestart.Idle := by decide +kernel
    exact ⟨by decide +kernel, fun t ht => by cases hidle _ ht⟩
  there := by decide +kernel
  stays := by simp [restarting, knockAt]
  clock := by decide +kernel
  paced := by decide +kernel

theorem knocking_unanswered_restarting :
    Knocking plainServer plainAddr 0 beforeRestart restarting ∧
      ¬ Answered plainServer plainAddr 6 beforeRestart restarting ∧
      (run (serve plainServer) beforeRestart restarting).sessions plainAddr = some 0 :=
  ⟨knocking_restarting,
    (knocking_unanswered plainServer plainAddr 6 beforeRestart restarting).2 0
      knocking_restarting⟩

/-- The session has another id than the `HARD_RESET`s. All four of them are handled, and the
reaper has judged the session each time, after twice its timeout as well; but no reply is sent. -/
theorem restarted_client_shut_out :
    (beforeRestart.heap.map fun o => o.sess.clientSessionId) = [5] ∧
      clientRestart.sessionId = 6 ∧
      Knocking plainServer plainAddr 0 beforeRestart restarting ∧
      (trace (serve plainServer) beforeRestart restarting).filterMap
        (fun x => x.1.knock plainAddr x.2) = [60000, 120000, 180000, 240000] ∧
      (trace (serve plainServer) beforeRestart restarting).filterMap
        (fun x => x.1.judgement plainAddr x.2) = [60000, 120000, 180000, 240000] ∧
      plainServer.cfg.keepaliveTimeout = 120 ∧
      ∀ x ∈ trace (serve plainServer) beforeRestart restarting,
        x.1.greets plainServer plainAddr x.2 = [] := by
  exact ⟨by decide +kernel, rfl, knocking_restarting, by decide +kernel, by decide +kernel, rfl,
    by decide +kernel⟩

end Javs
