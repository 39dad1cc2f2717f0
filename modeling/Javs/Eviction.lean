import Javs.Tenancy

/-!
No entry outlives its session.

The reaper and the teardown of a stream work on an address in several steps, and so does a
handler. If two of them work on the same address at once, entries are left behind. If they
take turns, and no session is given an address twice, then with all tasks finished every
entry leads to a session that is present and has the address or the peer id in question.
-/

namespace Javs

open Lib

variable {Conn : Type}

/-! ### Taking turns -/

def Server.busy (s : Server Conn) (a : SocketAddr) : Bool :=
  s.tasks.any fun t => t.any fun t => t.addr = a

/-- The session for which the task at `i` is about to handle a control packet, if it is not
established yet. -/
def Server.candidate (s : Server Conn) (i : ℕ) : Option (Session Conn) :=
  match s.tasks[i]? with
  | some (some ⟨_, .locked r ..⟩) => ((s.heap[r]?).map Object.sess).filter (·.state.early)
  | _ => none

/-- A task starts at an address that no other is at work on. -/
def InTurn (s : Server Conn) : ServerEvent Conn → Prop
  | .control a .. | .reap a | .close a => s.busy a = false
  | _ => True

/-- No session is given an address twice: none that has one, from a `PUSH_REQUEST` that went
wrong half-way, gets further control packets before it is established. -/
def AskOnce (s : Server Conn) : ServerEvent Conn → Prop
  | .advance i _ => ∀ sess ∈ s.candidate i, sess.assignedIp = none ∧ sess.assignedIpV6 = none
  | _ => True

def TakeTurns (s : Server Conn) (e : ServerEvent Conn) : Prop := InTurn s e ∧ AskOnce s e

instance (s : Server Conn) (e : ServerEvent Conn) : Decidable (InTurn s e) :=
  match e with
  | .control a .. | .reap a | .close a => inferInstanceAs (Decidable (s.busy a = false))
  | .advance .. | .forward .. | .visit .. => instDecidableTrue

instance (s : Server Conn) (e : ServerEvent Conn) : Decidable (AskOnce s e) :=
  match e with
  | .advance i _ => inferInstanceAs (Decidable (∀ sess ∈ s.candidate i, _ ∧ _))
  | .control .. | .reap _ | .close _ | .forward .. | .visit .. => instDecidableTrue

instance (s : Server Conn) (e : ServerEvent Conn) : Decidable (TakeTurns s e) :=
  inferInstanceAs (Decidable (_ ∧ _))

section Events

variable {s s' : Server Conn}

lemma not_busy {a : SocketAddr} (h : s.busy a = false) {i : ℕ} {t : Task}
    (hi : s.tasks[i]? = some (some t)) : t.addr ≠ a := by
  rintro rfl
  have hall := List.any_eq_false.mp h (some t) (List.mem_of_getElem? hi)
  simp at hall

lemma candidate_eq {i : ℕ} {t : Task} (hi : s.tasks[i]? = some (some t)) {r : Ref}
    {ctrl : ControlPacket} {replayPid : Option UInt32} {o : Object Conn}
    (ht : t.stage = .locked r ctrl replayPid) (ho : s.heap[r]? = some o)
    (he : o.sess.state.early = true) : s.candidate i = some o.sess := by
  rcases t with ⟨a, st⟩
  cases ht
  simp [Server.candidate, hi, ho, he]

lemma shift_of_same (howned : ∀ e a, s'.Owned e a ↔ s.Owned e a)
    (hholder : ∀ e, s'.holder e = s.holder e) (a : SocketAddr) : Shift s s' a :=
  ⟨fun b _ e => howned e b, fun e => .kept (hholder e) (howned e a).mpr fun _ => (howned e a).mp⟩

lemma fits_congr (hten : s'.tenant = s.tenant) (hsess : s'.sessions = s.sessions)
    (a : SocketAddr) (st : Stage) : st.Fits s' a ↔ st.Fits s a := by
  cases st <;> simp only [Stage.Fits, hten, hsess]

lemma Orderly.touched (h : Orderly s) {ref : Ref} {o o' : Object Conn}
    (ho : s.heap[ref]? = some o) (hh : o'.home = o.home)
    (hold : o'.holding s.tab = o.holding s.tab)
    (hs' : s' = { s with heap := s.heap.set ref o' }) (a : SocketAddr) :
    Orderly s' ∧ Shift s s' a := by
  have hten : s'.tenant = s.tenant := by
    have hsame : o'.tenant = o.tenant := by
      have hip : o'.sess.assignedIp = o.sess.assignedIp := congrArg Holding.ip hold
      have hip6 : o'.sess.assignedIpV6 = o.sess.assignedIpV6 := congrArg Holding.ip6 hold
      have hpid : o'.sess.peerId = o.sess.peerId := congrArg Holding.peerId hold
      rw [Object.tenant, hh, hip, hip6, hpid, Object.tenant]
    -- of a session the maps know only what a visit leaves alone
    funext r
    rw [tenant_set (by rw [hs']) ho r]
    split
    · rename_i hr
      rw [hr, Server.tenant, ho, hsame]
      rfl
    · rfl
  have hsess : s'.sessions = s.sessions := by rw [hs']
  have htasks : s'.tasks = s.tasks := by rw [hs']
  have hdata : s'.dataRoutes = s.dataRoutes := by rw [hs']
  constructor
  · refine ⟨?_, ?_, ?_, ?_, ?_⟩
    · rw [htasks]
      exact h.alone
    · rw [hsess, hten]
      exact h.home
    · rw [htasks, hten]
      exact h.hand
    · intro i t hi
      rw [htasks] at hi
      exact (fits_congr hten hsess _ _).mpr (h.fits i t hi)
    · rw [hdata, hten]
      exact h.worker
  · refine shift_of_same (fun e b => ?_) (fun e => ?_) a
    · simp only [Server.Owned, Server.Present, hsess, hten, htasks, clears_congr hten]
    · cases e with
      | data pid => simp only [Server.holder, hdata, hten]
      | _ => rw [hs']; rfl

lemma clears_of_isFirst {st : Stage} (h : st.isFirst = true) (e : Entry) : ¬ st.Clears s e :=
  not_clears_of_ref (Stage.ref?_of_isFirst h) e

lemma Orderly.spawn (h : Orderly s) {a : SocketAddr} (hb : s.busy a = false) {st : Stage}
    (hst : st.isFirst = true) : Orderly (s.spawn a st) ∧ Shift s (s.spawn a st) a := by
  refine ⟨⟨?_, h.home, ?_, ?_, h.worker⟩, shift_of_same (fun e b => ?_) ?_ a⟩
  · intro j k t u hj hk hjk
    rcases spawn_cases hj with ⟨rfl, rfl⟩ | hj <;> rcases spawn_cases hk with ⟨rfl, rfl⟩ | hk
    · rfl
    · exact absurd hjk.symm (not_busy hb hk)
    · exact absurd hjk (not_busy hb hj)
    · exact h.alone j k t u hj hk hjk
  · intro j t r hj hr
    rcases spawn_cases hj with ⟨-, rfl⟩ | hj
    · rw [Stage.ref?_of_isFirst hst] at hr
      cases hr
    · exact h.hand j t r hj hr
  · intro j t hj
    rcases spawn_cases hj with ⟨-, rfl⟩ | hj
    · cases st <;> trivial
    · exact (fits_congr rfl rfl _ _).mpr (h.fits j t hj)
  · refine or_congr Iff.rfl ⟨?_, ?_⟩
    · rintro ⟨j, t, hj, ha, hc⟩
      rcases spawn_cases hj with ⟨-, rfl⟩ | hj
      · exact absurd hc (clears_of_isFirst hst e)
      · exact ⟨j, t, hj, ha, hc⟩
    · rintro ⟨j, t, hj, ha, hc⟩
      exact ⟨j, t, spawn_task hj, ha, hc⟩
  · intro e
    cases e <;> rfl

/-- **An event.** If tasks take turns, order is kept, and if no session is given an address twice,
every entry has one of its fates. -/
theorem Orderly.serve (h : Orderly s) {e : ServerEvent Conn} (hc : InTurn s e)
    (hs : Serves s e s') : Orderly s' ∧ (AskOnce s e → ∃ a, Shift s s' a) := by
  cases hs with
  | idle => exact ⟨h, fun _ => ⟨⟨.v4 0, 0⟩, shift_of_same (fun _ _ => Iff.rfl) (fun _ => rfl) _⟩⟩
  | spawned addr stage hr he =>
    have hb : s.busy addr = false := by
      rcases he with rfl | rfl | ⟨ctrl, replayPid, transport, rfl⟩ <;> exact hc
    exact (h.spawn hb hr).imp_right fun hsh _ => ⟨addr, hsh⟩
  | @advanced i env t s₁ stage ht ha =>
    refine (h.acts ht ha rfl).imp_right fun hsh hask =>
      ⟨_, hsh fun r ctrl replayPid o hst ho he => ?_⟩
    exact hask o.sess (candidate_eq ht hst ho he)
  | touched ref o o' ho hh hold =>
    exact (h.touched ho hh hold rfl o.home).imp_right fun hsh _ => ⟨_, hsh⟩

lemma orderly_new (p : Pools) : Orderly (Server.new p : Server Conn) := by
  refine ⟨?_, ?_, ?_, ?_, ?_⟩ <;> simp [Server.new]

/-! ### Entries and sessions -/

/-- Every entry has an owner, where it points. -/
def Owning (s : Server Conn) : Prop := ∀ e a, s.holder e = some a → s.Owned e a

lemma Owning.shift (h : Owning s) {a : SocketAddr} (hs : Shift s s' a) : Owning s' := by
  intro e b he
  cases hs.fate e with
  | kept hh ho =>
    have hold := h e b (hh.symm.trans he)
    by_cases hb : b = a
    · subst hb
      exact ho hold
    · exact (hs.others b hb e).mpr hold
  | entered hh ho =>
    cases hh.symm.trans he
    exact ho
  | cleared hh =>
    cases hh.symm.trans he

lemma owning_new (p : Pools) : Owning (Server.new p : Server Conn) := by
  intro e a h
  cases e <;> cases h

end Events

lemma orderly_run (S : VpnServer Conn) (p : Pools) (es : List (ServerEvent Conn))
    (hc : AllMeet (serve S) InTurn (Server.new p) es) :
    Orderly (run (serve S) (Server.new p) es) :=
  run_keeps (fun s e h hce => (h.serve hce (serve_serves S s e)).1) (orderly_new p) hc

lemma owning_run (S : VpnServer Conn) (p : Pools) (es : List (ServerEvent Conn))
    (hc : AllMeet (serve S) TakeTurns (Server.new p) es) :
    let s := run (serve S) (Server.new p) es
    Orderly s ∧ Owning s :=
  run_keeps (I := fun s => Orderly s ∧ Owning s)
    (fun s e h hce => by
      obtain ⟨ho, hshift⟩ := h.1.serve hce.1 (serve_serves S s e)
      obtain ⟨a, hs⟩ := hshift hce.2
      exact ⟨ho, h.2.shift hs⟩)
    ⟨orderly_new p, owning_new p⟩ hc

lemma Owning.present {s : Server Conn} (h : Owning s) (hidle : s.Idle) {e : Entry} {a : SocketAddr}
    (he : s.holder e = some a) :
    ∃ r o, s.sessions a = some r ∧ s.heap[r]? = some o ∧ e.Of o.tenant := by
  rcases h e a he with ⟨r, d, hs, hd, hof⟩ | ⟨i, t, hi, -⟩
  · obtain ⟨o, ho, rfl⟩ := Option.map_eq_some_iff.mp hd
    exact ⟨r, o, hs, ho, hof⟩
  · cases hidle _ (List.mem_of_getElem? hi)

/-- **The maps agree.** In every run in which tasks at one address take turns and no session
is given an address twice, whenever all tasks are finished, every route, peer and data route
leads to a session that is present and has the address or the peer id in question. -/
theorem entries_present (S : VpnServer Conn) (p : Pools) (es : List (ServerEvent Conn))
    (hc : AllMeet (serve S) TakeTurns (Server.new p) es)
    (hidle : (run (serve S) (Server.new p) es).Idle) :
    let s := run (serve S) (Server.new p) es
    (∀ ip addr, s.tab.routes ip = some addr → ∃ r o, s.sessions addr = some r ∧
      s.heap[r]? = some o ∧ o.sess.assignedIp = some (.v4 ip)) ∧
    (∀ ip addr, s.tab.routesV6 ip = some addr → ∃ r o, s.sessions addr = some r ∧
      s.heap[r]? = some o ∧ o.sess.assignedIpV6 = some ip) ∧
    (∀ pid addr, s.peers pid = some addr → ∃ r o, s.sessions addr = some r ∧
      s.heap[r]? = some o ∧ o.sess.peerId = pid) ∧
    (∀ pid, (s.dataRoutes pid).isSome → ∃ addr r o, s.sessions addr = some r ∧
      s.heap[r]? = some o ∧ o.sess.peerId = pid) := by
  intro s
  obtain ⟨hord, hown⟩ := owning_run S p es hc
  refine ⟨fun ip addr h => hown.present hidle (e := .route ip) h,
    fun ip addr h => hown.present hidle (e := .routeV6 ip) h,
    fun pid addr h => hown.present hidle (e := .peer pid) h, fun pid h => ?_⟩
  -- the entry names a session, and through it the address where that session is
  obtain ⟨r, hr⟩ := Option.isSome_iff_exists.mp h
  obtain ⟨d, hd⟩ := hord.worker pid r hr
  have hholder : s.holder (.data pid) = some d.home := by
    rw [Server.holder, hr, Option.bind_some, hd]
    rfl
  exact ⟨d.home, hown.present hidle hholder⟩

def late : Env Plain := { plainEnv 1 with now := 3600000 }

/-- A handler has looked up the session of a client that asks for an address, and not yet
locked it. -/
def asking : List (ServerEvent Plain) :=
  connecting (plainEnv 1) plainAddr (.udp plainAddr) 0 ++
    [.control plainAddr clientPush none (.udp plainAddr), .advance 1 late, .advance 1 late]

theorem entries_present_asked :
    let s := run (serve plainServer) (Server.new plainPools) (asking ++ [.advance 1 late])
    s.tab.routes 0x0A08000A = some plainAddr ∧
    (∀ ip addr, s.tab.routes ip = some addr → ∃ r o, s.sessions addr = some r ∧
      s.heap[r]? = some o ∧ o.sess.assignedIp = some (.v4 ip)) ∧
    (∀ ip addr, s.tab.routesV6 ip = some addr → ∃ r o, s.sessions addr = some r ∧
      s.heap[r]? = some o ∧ o.sess.assignedIpV6 = some ip) ∧
    (∀ pid addr, s.peers pid = some addr → ∃ r o, s.sessions addr = some r ∧
      s.heap[r]? = some o ∧ o.sess.peerId = pid) ∧
    (∀ pid, (s.dataRoutes pid).isSome → ∃ addr r o, s.sessions addr = some r ∧
      s.heap[r]? = some o ∧ o.sess.peerId = pid) :=
  ⟨by decide +kernel, entries_present plainServer plainPools _ (by decide +kernel)
    (by decide +kernel)⟩

/-- The reaper evicts the session after it has been looked up and before it is locked. The
handler then gives it an address, and the route stays behind. -/
theorem route_outlives_session :
    let s := run (serve plainServer) (Server.new plainPools)
      (asking ++ .reap plainAddr :: List.replicate 6 (.advance 2 late) ++ [.advance 1 late])
    s.Idle ∧ s.tab.routes 0x0A08000A = some plainAddr ∧ s.sessions plainAddr = none := by
  decide +kernel

end Javs
