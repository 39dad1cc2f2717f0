import Javs.Eviction
import Javs.Lockout
import Javs.Uplink

/-!
Why a session leaves the server.

An entry of `sessions` goes when the TCP stream of its address ends, or when the reaper takes it
out. The reaper first judges a session, under its lock, by the time it was last heard of, and
removes the entries of its address later, one by one, with other tasks in between. Behind every
removal there is a judgement, and no packet of the session that was judged had been accepted for
as long as the keepalive timeout before it.
-/

namespace Javs

open Lib

variable {Conn : Type} (S : VpnServer Conn)

/-! ### What is heard, and what is judged -/

/-- The session an event hears a packet of, and when: the `HARD_RESET` that creates it, a control
packet that is handled, or a data packet that is taken. -/
def Server.hears (s : Server Conn) : ServerEvent Conn → Option (Ref × ℕ)
  | .advance i env =>
    match s.tasks[i]? with
    | some (some ⟨_, .create ..⟩) =>
      if s.heap.length < (serve S s (.advance i env)).heap.length then some (s.heap.length, env.now)
      else none
    | some (some ⟨_, .locked ref ..⟩) => (s.locked ref env).map fun _ => (ref, env.now)
    | _ => none
  | .visit _ ref env (.data env' pkt) =>
    if (s.locked ref env).any fun w => (w.takes S pkt).isSome then some (ref, env'.now) else none
  | _ => none

/-- The address whose session the reaper finds idle in an event, the session, and the time. -/
def Server.judges (s : Server Conn) : ServerEvent Conn → Option (SocketAddr × Ref × ℕ)
  | .advance i env =>
    match s.tasks[i]? with
    | some (some ⟨addr, .reap ref⟩) =>
      if (s.heap[ref]?).any fun o =>
          S.cfg.keepaliveTimeout.toNat * 1000 ≤ env.now - o.sess.lastSeen then
        some (addr, ref, env.now)
      else none
    | _ => none
  | _ => none

/-- The addresses whose entry in `sessions` a task is going to remove, each with the session the
task has in hand. -/
def Server.condemned (s : Server Conn) : List (SocketAddr × Ref) :=
  s.tasks.filterMap fun t => t.bind fun t =>
    match t.stage with
    | .ops ref todo => if .removeSession ∈ todo then some (t.addr, ref) else none
    | _ => none

variable {S} {s : Server Conn} {e : ServerEvent Conn} {ref : Ref} {t : ℕ}

/-! ### Sessions are as old as their last packet -/

lemma underLock_heap (S : VpnServer Conn) (addr : SocketAddr) {env : Env Conn} {w : World Conn}
    (v : Event Conn) (hw : s.locked ref env = some w) :
    ∃ o, (underLock S s addr ref env v).heap[ref]? = some o ∧ o.sess = (step S addr w v).sess := by
  obtain ⟨o, ho, rfl⟩ := Option.map_eq_some_iff.mp hw
  refine ⟨{ o with sess := (step S addr ⟨o.sess, s.tab, env, []⟩ v).sess }, ?_, rfl⟩
  rw [underLock_of_some ho]
  exact List.getElem?_set_self (List.getElem?_eq_some_iff.mp ho).1

lemma lastSeen_data (addr : SocketAddr) (env : Env Conn) {w : World Conn} {pkt : Bytes}
    {u : Uplink} (h : w.takes S pkt = some u) :
    (step S addr w (.data env pkt)).sess.lastSeen = env.now := by
  obtain ⟨dp, i, hopens, -, -⟩ := opens_of_takes h
  have hopens' : Opens S { w with env } pkt dp i u.slot u.plaintext :=
    ⟨hopens.1, hopens.2, hopens.3, hopens.4, hopens.5⟩
  rw [step, decryptAndForward_opens hopens']
  split
  · rfl
  · split <;> rfl

lemma createSession_seen {env : Env Conn} {addr : SocketAddr} {ctrl : ControlPacket}
    {replayPid : Option UInt32} {transport : Transport}
    (h : s.heap.length < (createSession S env s addr ctrl replayPid transport).1.heap.length) :
    ∃ o, (createSession S env s addr ctrl replayPid transport).1.heap[s.heap.length]? = some o ∧
      o.sess.lastSeen = env.now := by
  unfold createSession at h ⊢
  rcases hc : env.conn with _ | conn <;> rw [hc] at h
  · exact absurd h (lt_irrefl _)
  dsimp only at h ⊢
  rcases hg : greet S ctrl ⟨newSession ctrl replayPid s.newPeerId transport conn env, s.tab, env,
    []⟩ with ⟨_ | _, w⟩ <;> rw [hg] at h
  · exact absurd h (lt_irrefl _)
  · have hseen := congrArg (·.1.lastSeen)
      (started_stamp S ⟨env, conn, s.tab, ctrl, replayPid, s.newPeerId, transport⟩)
    have hw : started S ⟨env, conn, s.tab, ctrl, replayPid, s.newPeerId, transport⟩ = w := by
      rw [started, hg]
    rw [hw] at hseen
    exact ⟨⟨addr, w.sess⟩, by simp, hseen⟩

lemma hears_seen (h : s.hears S e = some (ref, t)) :
    ∃ o, (serve S s e).heap[ref]? = some o ∧ o.sess.lastSeen = t := by
  cases e with
  | control | reap | close | forward => cases h
  | advance i env =>
    rw [Server.hears] at h
    split at h
    · rename_i addr ctrl replayPid transport hi
      split at h
      · rename_i hlen
        obtain ⟨rfl, rfl⟩ := Prod.mk.inj (Option.some.inj h)
        simp only [serve, hi, Task.next] at hlen ⊢
        exact createSession_seen hlen
      · cases h
    · rename_i addr r ctrl replayPid hi
      obtain ⟨w, hw, heq⟩ := Option.map_eq_some_iff.mp h
      obtain ⟨rfl, rfl⟩ := Prod.mk.inj heq
      obtain ⟨o, ho, hsess⟩ := underLock_heap S addr (.control env ctrl replayPid) hw
      refine ⟨o, by simpa only [serve, hi, Task.next] using ho, ?_⟩
      rw [hsess]
      exact congrArg (·.1.lastSeen) (step_control_stamp S addr w env ctrl replayPid)
    · cases h
  | visit addr r env v =>
    cases v with
    | data env' pkt =>
      rw [Server.hears] at h
      split at h
      · rename_i htakes
        obtain ⟨rfl, rfl⟩ := Prod.mk.inj (Option.some.inj h)
        rcases hw : s.locked r env with _ | w <;> rw [hw] at htakes
        · cases htakes
        obtain ⟨u, hu⟩ := Option.isSome_iff_exists.mp htakes
        obtain ⟨o, ho, hsess⟩ := underLock_heap S addr (.data env' pkt) hw
        refine ⟨o, ho, ?_⟩
        rw [hsess]
        exact lastSeen_data addr env' hu
      · cases h
    | _ => cases h

lemma heard_run (s : Server Conn) (es : List (ServerEvent Conn))
    (hclock : AllMeet (serve S) OnTime s es) :
    ∀ x ∈ trace (serve S) s es, x.1.hears S x.2 = some (ref, t) →
      ∃ o, (run (serve S) s es).heap[ref]? = some o ∧ t ≤ o.sess.lastSeen := by
  induction es using List.reverseRecOn with
  | nil => simp
  | append_singleton es e ih =>
    obtain ⟨hes, he⟩ := allMeet_append.mp hclock
    have htime : OnTime (run (serve S) s es) e := (allMeet_cons.mp he).1
    rw [trace_append, run_append, run_cons, run_nil]
    intro x hx hhears
    rcases List.mem_append.mp hx with hx | hx
    · obtain ⟨o, ho, hle⟩ := ih hes x hx hhears
      obtain ⟨o', ho', hle'⟩ := serve_seen (S := S) ho htime
      exact ⟨o', ho', hle.trans hle'⟩
    · rw [List.mem_singleton.mp hx] at hhears
      obtain ⟨o, ho, heq⟩ := hears_seen hhears
      exact ⟨o, ho, heq.ge⟩

/-! ### Behind every removal there is a judgement -/

lemma mem_condemned {c : SocketAddr × Ref} :
    c ∈ s.condemned ↔ ∃ (i : ℕ) (todo : List MapOp),
      s.tasks[i]? = some (some ⟨c.1, .ops c.2 todo⟩) ∧ .removeSession ∈ todo := by
  unfold Server.condemned
  rw [List.mem_filterMap]
  constructor
  · rintro ⟨t, ht, hc⟩
    obtain ⟨i, hi⟩ := List.getElem?_of_mem ht
    obtain ⟨⟨addr, st⟩, rfl, hst⟩ := Option.bind_eq_some_iff.mp hc
    cases st with
    | ops r todo =>
      dsimp only at hst
      split at hst
      · rename_i hmem
        obtain rfl := Option.some.inj hst
        exact ⟨i, todo, hi, hmem⟩
      · cases hst
    | _ => cases hst
  · rintro ⟨i, todo, hi, hmem⟩
    refine ⟨_, List.mem_of_getElem? hi, ?_⟩
    show (if _ then _ else _) = _
    rw [if_pos hmem]

lemma Task.next_condemns {env : Env Conn} {s : Server Conn} {t : Task} {r : Ref}
    {todo : List MapOp} (h : (t.next S env s).2 = some (.ops r todo))
    (hmem : .removeSession ∈ todo) :
    (∃ todo', t.stage = .ops r todo' ∧ .removeSession ∈ todo') ∨
      t.stage = .reap r ∧ ∃ o, s.heap[r]? = some o ∧
        S.cfg.keepaliveTimeout.toNat * 1000 ≤ env.now - o.sess.lastSeen := by
  -- only the reaper condemns a session that was not condemned before
  by_cases hreap : ∃ r', t.stage = .reap r'
  · obtain ⟨r', hst⟩ := hreap
    rw [Task.next, hst] at h
    dsimp only at h
    rcases ho : s.heap[r']? with _ | o <;> rw [ho] at h
    · cases h
    dsimp only at h
    split at h
    · rename_i hidle
      obtain ⟨rfl, -⟩ := Stage.ops.inj (Option.some.inj h)
      exact .inr ⟨hst, o, ho, hidle⟩
    · cases h
  · have ha := next_acts (S := S) env s t
    rw [h] at ha
    generalize (t.next S env s).1 = s' at ha
    cases ha with
    | created => simp [insertOps] at hmem
    | reaped ht => exact absurd ⟨_, ht⟩ hreap
    | torn ht o ho => exact absurd rfl (mem_removeOps hmem).2.2
    | op ht => exact .inl ⟨_, ht, List.mem_cons_of_mem _ hmem⟩

lemma condemned_step (S : VpnServer Conn) (s : Server Conn) (e : ServerEvent Conn)
    {c : SocketAddr × Ref} (h : c ∈ (serve S s e).condemned) :
    c ∈ s.condemned ∨ ∃ now, s.judges S e = some (c.1, c.2, now) := by
  obtain ⟨j, todo, hj, hmem⟩ := mem_condemned.mp h
  have hold (hj : s.tasks[j]? = some (some ⟨c.1, .ops c.2 todo⟩)) : c ∈ s.condemned :=
    mem_condemned.mpr ⟨j, todo, hj, hmem⟩
  have hspawn {addr : SocketAddr} {st : Stage} (hst : st.isFirst = true)
      (hj : (s.spawn addr st).tasks[j]? = some (some ⟨c.1, .ops c.2 todo⟩)) :
      c ∈ s.condemned := by
    rcases spawn_cases hj with ⟨-, ht⟩ | hj
    · obtain ⟨-, rfl⟩ := Task.mk.inj ht
      cases hst
    · exact hold hj
  have hlock {addr : SocketAddr} {r : Ref} {env : Env Conn} {v : Event Conn}
      (hj : (underLock S s addr r env v).tasks[j]? = some (some ⟨c.1, .ops c.2 todo⟩)) :
      c ∈ s.condemned := by
    rcases ho : s.heap[r]? with _ | o
    · rw [underLock_of_none ho] at hj
      exact hold hj
    · rw [underLock_of_some ho] at hj
      exact hold hj
  cases e with
  | control => exact .inl (hspawn rfl hj)
  | reap => exact .inl (hspawn rfl hj)
  | close => exact .inl (hspawn rfl hj)
  | forward env ipPkt =>
    simp only [serve] at hj
    split at hj
    · exact .inl (hold hj)
    · exact .inl (hlock hj)
  | visit addr r env v =>
    simp only [serve] at hj
    split at hj
    · exact .inl (hlock hj)
    · exact .inl (hold hj)
  | advance i env =>
    simp only [serve] at hj
    rcases hi : s.tasks[i]? with _ | _ | t <;> rw [hi] at hj
    · exact .inl (hold hj)
    · exact .inl (hold hj)
    rcases task_cases (s := s) (i := i) (t := t) (x := (t.next S env s).2) rfl hj with
      ⟨-, haddr, hx⟩ | ⟨-, hj⟩
    · rcases Task.next_condemns hx hmem with ⟨todo', hst, hmem'⟩ | ⟨hst, o, ho, hidle⟩
      · refine .inl (mem_condemned.mpr ⟨i, todo', ?_, hmem'⟩)
        obtain ⟨a, st⟩ := t
        obtain rfl : c.1 = a := haddr
        obtain rfl : st = .ops c.2 todo' := hst
        exact hi
      · refine .inr ⟨env.now, ?_⟩
        obtain ⟨a, st⟩ := t
        obtain rfl : c.1 = a := haddr
        obtain rfl : st = .reap c.2 := hst
        simp only [Server.judges, hi, ho, Option.any_some, decide_eq_true_eq, if_pos hidle]
    · exact .inl (hold hj)

/-! ### Entries that go -/

lemma entry_leaves {addr : SocketAddr} (hs : s.sessions addr = some ref)
    (hne : (serve S s e).sessions addr ≠ some ref) :
    ∃ i env st, e = .advance i env ∧ s.tasks[i]? = some (some ⟨addr, st⟩) ∧
      (st = .closing ∨ (∃ r todo, st = .ops r (.insertSession :: todo)) ∨
        ∃ r todo, st = .ops r (.removeSession :: todo)) := by
  have hserves := serve_serves S s e
  generalize serve S s e = s' at hserves hne
  cases hserves with
  | idle | spawned | touched => exact absurd hs hne
  | @advanced i env t s₁ x hi ha =>
    by_cases haddr : t.addr = addr
    swap
    · exact absurd ((ha.sessions_other haddr).trans hs) hne
    subst haddr
    refine ⟨i, env, t.stage, rfl, hi, ?_⟩
    cases ha with
    | closed ht r hr => exact .inl ht
    | @op r op todo ht =>
      cases op with
      | insertSession => exact .inr (.inl ⟨r, todo, ht⟩)
      | removeSession => exact .inr (.inr ⟨r, todo, ht⟩)
      | _ => exact absurd hs hne
    | _ => exact absurd hs hne

/-- The reaper has found the session idle at an event of the run, and by then no packet of it had
been heard for the keepalive timeout. -/
def Judged (S : VpnServer Conn) (s : Server Conn) (es : List (ServerEvent Conn))
    (addr : SocketAddr) (ref : Ref) : Prop :=
  ∃ es₁ e es₂ now, es = es₁ ++ e :: es₂ ∧
    (run (serve S) s es₁).judges S e = some (addr, ref, now) ∧
    ∀ x ∈ trace (serve S) s es₁, ∀ t, x.1.hears S x.2 = some (ref, t) →
      S.cfg.keepaliveTimeout.toNat * 1000 ≤ now - t

lemma judges_idle {addr : SocketAddr} {now : ℕ} {o : Object Conn}
    (h : s.judges S e = some (addr, ref, now)) (ho : s.heap[ref]? = some o) :
    S.cfg.keepaliveTimeout.toNat * 1000 ≤ now - o.sess.lastSeen := by
  cases e with
  | advance i env =>
    rw [Server.judges] at h
    split at h
    · split at h
      · rename_i hidle
        obtain ⟨rfl, hrest⟩ := Prod.mk.inj (Option.some.inj h)
        obtain ⟨rfl, rfl⟩ := Prod.mk.inj hrest
        rw [ho] at hidle
        simpa using hidle
      · cases h
    · cases h
  | _ => cases h

lemma judged_of_condemned (p : Pools) {es : List (ServerEvent Conn)}
    (hclock : AllMeet (serve S) OnTime (Server.new p) es) {c : SocketAddr × Ref}
    (h : c ∈ (run (serve S) (Server.new p) es).condemned) : Judged S (Server.new p) es c.1 c.2 := by
  have horigin := run_origin (C := fun _ _ => True) (I := fun _ => True)
    (f := Server.condemned) (P := fun s e c => ∃ now, s.judges S e = some (c.1, c.2, now))
    (fun _ _ _ _ => trivial) (fun s e _ _ c hc => condemned_step S s e hc) trivial
    (fun _ _ => trivial) c h
  rcases horigin with hnew | ⟨x, hx, now, hjudges⟩
  · cases hnew
  obtain ⟨es₁, es₂, hes, hrun⟩ := (mem_trace_iff (serve S)).mp hx
  rw [hrun] at hjudges
  refine ⟨es₁, x.2, es₂, now, hes, hjudges, fun y hy t hhears => ?_⟩
  rw [hes] at hclock
  obtain ⟨o, ho, hle⟩ := heard_run _ es₁ (allMeet_append.mp hclock).1 y hy hhears
  have hidle := judges_idle hjudges ho
  omega

/-- **A session leaves for a cause.** As long as the clock does not run backwards: whenever the
entry of an address goes from `sessions` or is replaced, the event is a step of a task at that
address: it ends the TCP stream of the address, or it is the reaper, which had found the session it
has in hand idle, no packet of it having been accepted for the keepalive timeout, or it enters a new
session. If tasks at one address take turns, no session is replaced, and the session that goes is
the one that was judged. -/
theorem leaves_closed_or_silent (S : VpnServer Conn) (p : Pools) (es : List (ServerEvent Conn))
    (hclock : AllMeet (serve S) OnTime (Server.new p) es) (e : ServerEvent Conn)
    (addr : SocketAddr) (ref : Ref)
    (hs : (run (serve S) (Server.new p) es).sessions addr = some ref)
    (hne : (serve S (run (serve S) (Server.new p) es) e).sessions addr ≠ some ref) :
    ∃ i env st, e = .advance i env ∧
      (run (serve S) (Server.new p) es).tasks[i]? = some (some ⟨addr, st⟩) ∧
      (st = .closing ∨
        (∃ r todo, st = .ops r (.insertSession :: todo) ∧
          ¬ AllMeet (serve S) InTurn (Server.new p) es) ∨
        ∃ r todo, st = .ops r (.removeSession :: todo) ∧ Judged S (Server.new p) es addr r ∧
          (AllMeet (serve S) InTurn (Server.new p) es → r = ref)) := by
  obtain ⟨i, env, st, he, hi, hst⟩ := entry_leaves hs hne
  refine ⟨i, env, st, he, hi, ?_⟩
  rcases hst with hst | ⟨r, todo, rfl⟩ | ⟨r, todo, rfl⟩
  · exact .inl hst
  · refine .inr (.inl ⟨r, todo, rfl, fun hturns => ?_⟩)
    -- in turn, an entry is made only where there is none
    obtain ⟨d, -, ⟨-, -, -, hnone⟩ | ⟨hsuffix, -⟩⟩ :=
      (orderly_run S p es hturns).fits i _ hi
    · rw [if_pos List.mem_cons_self, hs] at hnone
      cases hnone
    · rcases mem_clearOps.mp (hsuffix.subset List.mem_cons_self) with h | ⟨entry, h, -⟩
      · cases h
      · cases entry <;> cases h
  · have hcondemned : (addr, r) ∈ (run (serve S) (Server.new p) es).condemned :=
      mem_condemned.mpr ⟨i, _, hi, List.mem_cons_self⟩
    refine .inr (.inr ⟨r, todo, rfl, judged_of_condemned p hclock hcondemned, fun hturns => ?_⟩)
    obtain ⟨d, -, ⟨hsuffix, -⟩ | ⟨-, hsome⟩⟩ := (orderly_run S p es hturns).fits i _ hi
    · have hmem := hsuffix.subset List.mem_cons_self
      simp [insertOps] at hmem
    · rw [if_pos List.mem_cons_self, hs] at hsome
      exact (Option.some.inj hsome).symm

def abandoned : List (ServerEvent Plain) :=
  connecting (plainEnv 1) plainAddr (.udp plainAddr) 0 ++
    [.reap plainAddr, .advance 1 late, .advance 1 late]

lemma abandoned_facts :
    AllMeet (serve plainServer) OnTime (Server.new plainPools) abandoned ∧
      AllMeet (serve plainServer) InTurn (Server.new plainPools) abandoned ∧
      (run (serve plainServer) (Server.new plainPools) abandoned).sessions plainAddr = some 0 ∧
      (serve plainServer (run (serve plainServer) (Server.new plainPools) abandoned)
        (.advance 1 late)).sessions plainAddr = none := by
  decide +kernel

theorem leaves_closed_or_silent_abandoned :
    ∃ i env st, ServerEvent.advance 1 late = .advance i env ∧
      (run (serve plainServer) (Server.new plainPools) abandoned).tasks[i]? =
        some (some ⟨plainAddr, st⟩) ∧
      (st = .closing ∨
        (∃ r todo, st = .ops r (.insertSession :: todo) ∧
          ¬ AllMeet (serve plainServer) InTurn (Server.new plainPools) abandoned) ∨
        ∃ r todo, st = .ops r (.removeSession :: todo) ∧
          Judged plainServer (Server.new plainPools) abandoned plainAddr r ∧
          (AllMeet (serve plainServer) InTurn (Server.new plainPools) abandoned → r = 0)) := by
  obtain ⟨hclock, -, hthere, hgone⟩ := abandoned_facts
  refine leaves_closed_or_silent plainServer plainPools abandoned hclock (.advance 1 late)
    plainAddr 0 hthere ?_
  rw [hgone]
  simp

end Javs
