import Javs.Pool
import Javs.Eviction

/-!
How long the pools last.

An allocator only ever moves its cursor up. What a session gives back when it goes is an entry
in the routes, and no allocator looks at those: an address that was handed out once is not
handed out again. So a pool serves as long as it has an address that no session was ever given.
-/

namespace Javs

open Lib Proc Relation

variable {Conn : Type}

/-! ### What an event draws from the pools -/

/-- From `h` to `h'` at most one address was drawn from each pool, and the session has it. The
flags tell whether it was given an IPv4 and an IPv6 address on the way. -/
structure Drawing (h h' : Holding) (v4 v6 : Bool) : Prop where
  v4 : h'.tab.nextPoolIp = h.tab.nextPoolIp ∨
    v4 = true ∧ h'.tab.nextPoolIp = h.tab.nextPoolIp + 1 ∧ h'.ip = some (.v4 h.tab.nextPoolIp)
  v6 : h'.tab.nextPoolIpV6 = h.tab.nextPoolIpV6 ∨
    v6 = true ∧ ∃ ip, h.tab.nextPoolIpV6 = some ip ∧ h'.tab.nextPoolIpV6 = some (ip + 1) ∧
      h'.ip6 = some ip

section Moves

variable {S : VpnServer Conn} {addr : SocketAddr} {n : ℕ} {a b : Abs} {h : Holding}

def DrawingSince (n : ℕ) (h : Holding) (a : Abs) : Prop :=
  n ≤ a.log.length ∧ Drawing h a.holding (assignedSince n a.log) (assignedV6Since n a.log)

lemma DrawingSince.tell (hlen : n ≤ a.log.length) {e : Effect} (hl : b.log = a.log ++ [e])
    (hd : Drawing h b.holding (assignedSince n a.log || e.isAssigned)
      (assignedV6Since n a.log || e.isAssignedV6)) : DrawingSince n h b := by
  refine ⟨by simp [hl, hlen.trans], ?_⟩
  rwa [hl, assignedSince, assignedV6Since, any_drop_append hlen, any_drop_append hlen]

lemma DrawingSince.silent (hd : DrawingSince n h a) {e : Effect} (hl : b.log = a.log ++ [e])
    (h4 : e.isAssigned = false) (h6 : e.isAssignedV6 = false) (htab : b.tab = a.tab)
    (hip : b.ip = a.ip) (hip6 : b.ip6 = a.ip6) : DrawingSince n h b := by
  obtain ⟨hlen, hd⟩ := hd
  refine .tell hlen hl ?_
  rw [h4, h6, Bool.or_false, Bool.or_false]
  have htab' : b.holding.tab = a.holding.tab := htab
  have hip' : b.holding.ip = a.holding.ip := hip
  have hip6' : b.holding.ip6 = a.holding.ip6 := hip6
  exact ⟨by rw [htab', hip']; exact hd.v4, by rw [htab', hip6']; exact hd.v6⟩

lemma DrawingSince.move (hd : DrawingSince n h a) (hm : Move S addr n .main a b) :
    DrawingSince n h b := by
  obtain ⟨hlen, h4, h6⟩ := id hd
  cases hm with
  | wire | sent | ack | drained | frag | installed | handshaken =>
    exact hd.silent rfl rfl rfl rfl rfl rfl
  | keyed | established | closed => exact ⟨hlen, h4, h6⟩
  | assignStatic _ ip hs hr hn =>
    rw [hn] at h4
    refine .tell (e := .assigned ip) hlen rfl ⟨?_, ?_⟩
    · exact .inl (h4.resolve_right fun h => Bool.false_ne_true h.1)
    · rw [show (Effect.assigned ip).isAssignedV6 = false from rfl, Bool.or_false]
      exact h6
  | assignPool _ hs hle hn =>
    rw [hn] at h4
    have hcur := h4.resolve_right fun h => Bool.false_ne_true h.1
    refine .tell (a := a) (e := .assigned a.tab.nextPoolIp) hlen rfl ⟨?_, ?_⟩
    · refine .inr ⟨Bool.or_true _, ?_, ?_⟩ <;> rw [← hcur] <;> rfl
    · rw [show (Effect.assigned a.tab.nextPoolIp).isAssignedV6 = false from rfl, Bool.or_false]
      exact h6
  | assignV6 _ ip hi hs hc he hle ha hn =>
    rw [hn] at h6
    have hcur := h6.resolve_right fun h => Bool.false_ne_true h.1
    refine .tell (e := .assignedV6 ip) hlen rfl ⟨?_, ?_⟩
    · rw [show (Effect.assignedV6 ip).isAssigned = false from rfl, Bool.or_false]
      exact h4
    · exact .inr ⟨Bool.or_true _, ip, hcur.symm.trans hc, rfl, rfl⟩

lemma DrawingSince.moves (hd : DrawingSince n h a)
    (hm : ReflTransGen (Move S addr n .main) a b) : DrawingSince n h b := by
  induction hm with
  | refl => exact hd
  | tail _ hm ih => exact ih.move hm

end Moves

structure Draws (h h' : Holding) : Prop where
  v4 : h'.tab.nextPoolIp = h.tab.nextPoolIp ∨
    h.state.early = true ∧ h'.tab.nextPoolIp = h.tab.nextPoolIp + 1 ∧
      h'.ip = some (.v4 h.tab.nextPoolIp)
  v6 : h'.tab.nextPoolIpV6 = h.tab.nextPoolIpV6 ∨
    h.state.early = true ∧ ∃ ip, h.tab.nextPoolIpV6 = some ip ∧
      h'.tab.nextPoolIpV6 = some (ip + 1) ∧ h'.ip6 = some ip

lemma Draws.refl (h : Holding) : Draws h h := ⟨.inl rfl, .inl rfl⟩

section Events

variable {S : VpnServer Conn} {addr : SocketAddr} {w : World Conn} {a : Abs}

/-- **Draws.** An event of the session itself draws at most one address from each pool, and
only on the way to the established state. -/
theorem Reacts.draws {e : Event Conn} (h : Reacts S addr w e a) (he : ∀ tab, e ≠ .shared tab) :
    Draws w.abs.holding a.holding := by
  rcases h.holding_or_main he with hh | ⟨env, ctrl, replayPid, -, -, -, -, hm⟩
  · rw [hh]
    exact .refl _
  · have hfed : PushingSince addr _ _ _ := pushingSince_fed w ctrl
    have hpush := (hfed.moves hm).2
    have hstart : DrawingSince w.log.length w.abs.holding
        ((w.abs.hear ctrl).tell (.feed .main ctrl)) := by
      have htab : ((w.abs.hear ctrl).tell (.feed .main ctrl)).holding = w.abs.holding :=
        holding_hear w.abs ctrl
      exact ⟨hfed.1, by rw [htab]; exact ⟨.inl rfl, .inl rfl⟩⟩
    obtain ⟨-, h4, h6⟩ := hstart.moves hm
    exact ⟨h4.imp_right fun ⟨hv, hrest⟩ => ⟨(hpush.some4 hv).1, hrest⟩,
      h6.imp_right fun ⟨hv, hrest⟩ => ⟨(hpush.some6 hv).1, hrest⟩⟩

end Events

/-! ### What the server has handed out -/

/-- What lies behind a cursor has been given to a session, which may be gone by now. -/
structure Handed (p : Pools) (s : Server Conn) : Prop where
  v4 : ∀ a, p.start ≤ a → a < s.tab.nextPoolIp → ∃ o ∈ s.heap, o.sess.assignedIp = some (.v4 a)
  v6 : ∀ lo hi, p.v6 = some (lo, hi) → ∃ c, s.tab.nextPoolIpV6 = some c ∧
    ∀ a, lo ≤ a → a < c → ∃ o ∈ s.heap, o.sess.assignedIpV6 = some a

section Handed

variable {S : VpnServer Conn} {p : Pools} {s s' : Server Conn}

lemma handed_new (p : Pools) : Handed p (Server.new p : Server Conn) := by
  constructor
  · intro a hle hlt
    exact absurd hlt (UInt32.not_lt.mpr hle)
  · intro lo hi hp
    refine ⟨lo, by simp [Server.new, hp], fun a hle hlt => ?_⟩
    exact absurd hlt (BitVec.not_lt.mpr hle)

lemma Handed.keep (h : Handed p s) (hcur : s'.tab.nextPoolIp = s.tab.nextPoolIp)
    (hcur6 : s'.tab.nextPoolIpV6 = s.tab.nextPoolIpV6)
    (hheap : ∀ o ∈ s.heap, ∃ o' ∈ s'.heap, o'.sess.assignedIp = o.sess.assignedIp ∧
      o'.sess.assignedIpV6 = o.sess.assignedIpV6) : Handed p s' := by
  constructor
  · intro a hle hlt
    rw [hcur] at hlt
    obtain ⟨o, ho, hip⟩ := h.v4 a hle hlt
    obtain ⟨o', ho', hip', -⟩ := hheap o ho
    exact ⟨o', ho', hip'.trans hip⟩
  · intro lo hi hp
    obtain ⟨c, hc, hall⟩ := h.v6 lo hi hp
    refine ⟨c, hcur6.trans hc, fun a hle hlt => ?_⟩
    obtain ⟨o, ho, hip⟩ := hall a hle hlt
    obtain ⟨o', ho', -, hip'⟩ := hheap o ho
    exact ⟨o', ho', hip'.trans hip⟩

lemma mem_set_or_eq {α : Type} {l : List α} {i : ℕ} {x y z : α} (hx : l[i]? = some x)
    (hz : z ∈ l) : z = x ∨ z ∈ l.set i y := by
  obtain ⟨j, hj⟩ := List.getElem?_of_mem hz
  by_cases hji : i = j
  · subst hji
    exact .inl (Option.some_inj.mp (hj.symm.trans hx))
  · refine .inr (List.mem_of_getElem? (i := j) ?_)
    rw [List.getElem?_set_ne hji, hj]

lemma mem_set_of {α : Type} {l : List α} {i : ℕ} {x y : α} (hx : l[i]? = some x) :
    y ∈ l.set i y :=
  List.mem_of_getElem? (List.getElem?_set_self (List.getElem?_eq_some_iff.mp hx).1)

lemma Handed.handled (h : Handed p s) {addr : SocketAddr} {ref : Ref} {o : Object Conn}
    (o' : Object Conn) {tab : Tables} (ho : s.heap[ref]? = some o)
    (ha : Assigns addr (o.holding s.tab) (o'.holding tab))
    (hd : Draws (o.holding s.tab) (o'.holding tab))
    (hask : o.sess.state.early = true → o.sess.assignedIp = none ∧ o.sess.assignedIpV6 = none)
    (hheap : s'.heap = s.heap.set ref o') (htab : s'.tab = tab) : Handed p s' := by
  have hkeeps : ∀ a, (∃ x ∈ s.heap, x.sess.assignedIp = some (.v4 a)) →
      ∃ x ∈ s'.heap, x.sess.assignedIp = some (.v4 a) := by
    rintro a ⟨x, hx, hip⟩
    rw [hheap]
    rcases mem_set_or_eq ho hx with rfl | hx
    · refine ⟨o', mem_set_of ho, ?_⟩
      rcases ha.v4 with ⟨hsame, -⟩ | ⟨he, -⟩
      · exact hsame.trans hip
      · exact absurd ((hask he).1.symm.trans hip) (Option.some_ne_none _).symm
    · exact ⟨x, hx, hip⟩
  have hkeeps6 : ∀ a, (∃ x ∈ s.heap, x.sess.assignedIpV6 = some a) →
      ∃ x ∈ s'.heap, x.sess.assignedIpV6 = some a := by
    rintro a ⟨x, hx, hip⟩
    rw [hheap]
    rcases mem_set_or_eq ho hx with rfl | hx
    · refine ⟨o', mem_set_of ho, ?_⟩
      rcases ha.v6 with ⟨hsame, -⟩ | ⟨he, -⟩
      · exact hsame.trans hip
      · exact absurd ((hask he).2.symm.trans hip) (Option.some_ne_none _).symm
    · exact ⟨x, hx, hip⟩
  have hnew : o' ∈ s'.heap := by
    rw [hheap]
    exact mem_set_of ho
  constructor
  · intro a hle hlt
    rw [htab] at hlt
    rcases hd.v4 with hcur | ⟨-, hcur, hip⟩
    · exact hkeeps a (h.v4 a hle (hcur ▸ hlt))
    · -- behind the new cursor is what was behind the old one, and the address handed out now
      have hcur' : tab.nextPoolIp = s.tab.nextPoolIp + 1 := hcur
      by_cases hsame : a = s.tab.nextPoolIp
      · subst hsame
        exact ⟨o', hnew, hip⟩
      · refine hkeeps a (h.v4 a hle ?_)
        rw [hcur'] at hlt
        grind
  · intro lo hi hp
    obtain ⟨c, hc, hall⟩ := h.v6 lo hi hp
    rcases hd.v6 with hcur | ⟨-, ip, hcur, hnext, hip⟩
    · refine ⟨c, ?_, fun a hle hlt => hkeeps6 a (hall a hle hlt)⟩
      rw [htab]
      exact hcur.trans hc
    · have hipc : ip = c := Option.some_inj.mp (hcur.symm.trans hc)
      refine ⟨ip + 1, by rw [htab]; exact hnext, fun a hle hlt => ?_⟩
      by_cases hsame : a = ip
      · subst hsame
        exact ⟨o', hnew, hip⟩
      · refine hkeeps6 a (hall a hle ?_)
        rw [← hipc]
        bv_omega

lemma Handed.acts (h : Handed p s) {t : Task} {st : Option Stage} (ha : Acts s t s' st)
    (hl : ∀ ref ctrl replayPid o, t.stage = .locked ref ctrl replayPid →
      s.heap[ref]? ≠ some o) : Handed p s' := by
  have hsame : ∀ o ∈ s.heap, ∃ o' ∈ s.heap, o'.sess.assignedIp = o.sess.assignedIp ∧
      o'.sess.assignedIpV6 = o.sess.assignedIpV6 := fun o ho => ⟨o, ho, rfl, rfl⟩
  cases ha with
  | handled ht o o' tab ho => exact absurd ho (hl _ _ _ _ ht)
  | created ht next o hh ho =>
    exact h.keep rfl rfl fun x hx => ⟨x, List.mem_append_left _ hx, rfl, rfl⟩
  | op ht =>
    rename_i op _
    cases op <;> exact h.keep rfl rfl hsame
  | _ => exact h.keep rfl rfl hsame

lemma Handed.locked (h : Handed p s) {i : ℕ} {env : Env Conn} {addr : SocketAddr} {ref : Ref}
    {ctrl : ControlPacket} {replayPid : Option UInt32} {o : Object Conn}
    (ht : s.tasks[i]? = some (some ⟨addr, .locked ref ctrl replayPid⟩))
    (ho : s.heap[ref]? = some o) (hc : AskOnce s (.advance i env)) :
    Handed p (serve S s (.advance i env)) := by
  have hre := step_reacts S addr ⟨o.sess, s.tab, env, []⟩ (.control env ctrl replayPid)
  have hne : ∀ tab, Event.control env ctrl replayPid ≠ .shared tab := fun _ he => by cases he
  have heq : Javs.serve S s (.advance i env) =
      { underLock S s addr ref env (.control env ctrl replayPid) with
        tasks := s.tasks.set i none } := by
    simp only [Javs.serve, ht, Task.next, Option.map_none]
  rw [heq, underLock_of_some ho]
  exact h.handled ⟨o.home, _⟩ ho (hre.assigns hne) (hre.draws hne)
    (fun he => hc o.sess (candidate_eq ht rfl ho he)) rfl rfl

lemma Handed.serve (h : Handed p s) {e : ServerEvent Conn} (hc : AskOnce s e) :
    Handed p (serve S s e) := by
  by_cases hl : ∃ i env addr ref ctrl replayPid o, e = .advance i env ∧
      s.tasks[i]? = some (some ⟨addr, .locked ref ctrl replayPid⟩) ∧ s.heap[ref]? = some o
  · obtain ⟨i, env, addr, ref, ctrl, replayPid, o, rfl, ht, ho⟩ := hl
    exact h.locked ht ho hc
  · have hs := serve_serves S s e
    generalize Javs.serve S s e = s' at hs ⊢
    cases hs with
    | idle | spawned => exact h.keep rfl rfl fun o ho => ⟨o, ho, rfl, rfl⟩
    | @advanced i env t s₁ stage ht ha =>
      have h₁ : Handed p s₁ := h.acts ha fun ref ctrl replayPid o hst ho =>
        hl ⟨i, env, t.addr, ref, ctrl, replayPid, o, rfl, hst ▸ ht, ho⟩
      exact h₁.keep rfl rfl fun o ho => ⟨o, ho, rfl, rfl⟩
    | touched ref o o' ho hh hold =>
      refine h.keep rfl rfl fun x hx => ?_
      rcases mem_set_or_eq ho hx with rfl | hx
      · exact ⟨o', mem_set_of ho, congrArg Holding.ip hold, congrArg Holding.ip6 hold⟩
      · exact ⟨x, hx, rfl, rfl⟩

/-- **The pools last** as long as they have an address that no session was ever given: in every
run in which no session is given an address twice, the next call of an allocator then succeeds,
whichever sessions have come and gone. -/
theorem allocators_supply (hS : S.Built p) (es : List (ServerEvent Conn))
    (hc : AllMeet (Javs.serve S) AskOnce (Server.new p) es) {w : World Conn}
    (hw : w.tab = (run (Javs.serve S) (Server.new p) es).tab) :
    let s := run (Javs.serve S) (Server.new p) es
    ((∃ a, p.start ≤ a ∧ a ≤ p.stop ∧ ∀ o ∈ s.heap, o.sess.assignedIp ≠ some (.v4 a)) →
      ∃ ip, (allocateIp S w).1 = .ok ip) ∧
    ∀ lo hi, p.v6 = some (lo, hi) →
      (∃ a, lo ≤ a ∧ a ≤ hi ∧ ∀ o ∈ s.heap, o.sess.assignedIpV6 ≠ some a) →
      ∃ ip, (allocateIpV6 S w).1 = .ok (some ip) := by
  intro s
  have h : Handed p s := run_keeps (fun s e h hce => h.serve hce) (handed_new p) hc
  constructor
  · rintro ⟨a, hle, hstop, hfree⟩
    rw [allocateIp_eq, hw, hS.poolEnd]
    -- had the cursor passed the end, some session would have been given the address
    have hcur : ¬ s.tab.nextPoolIp > p.stop := fun hlt => by
      obtain ⟨o, ho, hip⟩ := h.v4 a hle (UInt32.lt_of_le_of_lt hstop hlt)
      exact hfree o ho hip
    rw [if_neg hcur]
    exact ⟨_, rfl⟩
  · rintro lo hi hp ⟨a, hle, hstop, hfree⟩
    obtain ⟨c, hc, hall⟩ := h.v6 lo hi hp
    have hend : S.poolEndV6 = some hi := by rw [hS.poolEndV6, hp]; rfl
    rw [allocateIpV6_eq hend ((congrArg Tables.nextPoolIpV6 hw).trans hc)]
    have hcur : ¬ c > hi := fun hlt => by
      obtain ⟨o, ho, hip⟩ := hall a hle (by bv_omega)
      exact hfree o ho hip
    rw [if_neg hcur]
    exact ⟨_, rfl⟩

end Handed

def smallPools (stop : UInt32) (stop6 : BitVec 128) : Pools :=
  ⟨0x0A08000A, stop, some (16, stop6)⟩

def smallServer (stop : UInt32) (stop6 : BitVec 128) : VpnServer Plain :=
  { plainServer with
    cfg := { plainServer.cfg with
      clientPoolEnd := .v4 stop
      tunIp6 := some (.v6 1)
      clientPoolStartV6 := some (.v6 16)
      clientPoolEndV6 := some (.v6 stop6) }
    poolEnd := stop
    poolEndV6 := some stop6 }

lemma built_smallServer (stop : UInt32) (stop6 : BitVec 128) :
    (smallServer stop stop6).Built (smallPools stop stop6) := ⟨rfl, rfl, rfl⟩

/-- A session is given the first addresses, and evicted when it has been idle. -/
def evicting : List (ServerEvent Plain) :=
  connecting (plainEnv 1) plainAddr (.udp plainAddr) 0 ++ requesting plainAddr 1 ++
    .reap plainAddr :: List.replicate 8 (.advance 2 late)

/-- Of two addresses of either kind one is left after the eviction. -/
theorem allocators_supply_small :
    let s := run (serve (smallServer 0x0A08000B 17)) (Server.new (smallPools 0x0A08000B 17))
      evicting
    let w : World Plain := { poolWorld (smallPools 0x0A08000B 17) with tab := s.tab }
    s.sessions plainAddr = none ∧
      s.heap.map (fun o => (o.sess.assignedIp, o.sess.assignedIpV6)) =
        [(some (.v4 0x0A08000A), some 16)] ∧
      (∃ ip, (allocateIp (smallServer 0x0A08000B 17) w).1 = .ok ip) ∧
      ∃ ip, (allocateIpV6 (smallServer 0x0A08000B 17) w).1 = .ok (some ip) := by
  intro s w
  have hs : s.sessions plainAddr = none ∧
      s.heap.map (fun o => (o.sess.assignedIp, o.sess.assignedIpV6)) =
        [(some (.v4 0x0A08000A), some 16)] ∧
      (∀ o ∈ s.heap, o.sess.assignedIp ≠ some (.v4 0x0A08000B) ∧ o.sess.assignedIpV6 ≠ some 17) ∧
      AllMeet (serve (smallServer 0x0A08000B 17)) AskOnce
        (Server.new (smallPools 0x0A08000B 17)) evicting := by decide +kernel
  obtain ⟨hgone, hgiven, hfree, hc⟩ := hs
  have hw : w.tab = s.tab := by simp only [w]
  have h := allocators_supply (built_smallServer 0x0A08000B 17) evicting hc hw
  exact ⟨hgone, hgiven, h.1 ⟨0x0A08000B, by decide, by decide, fun o ho => (hfree o ho).1⟩,
    h.2 16 17 rfl ⟨17, by decide, by decide, fun o ho => (hfree o ho).2⟩⟩

lemma Orderly.gone {s : Server Conn} (h : Orderly s) {a : SocketAddr}
    (hhome : ∀ o ∈ s.heap, o.home = a) (hnone : s.sessions a = none) (addr : SocketAddr) :
    s.sessions addr = none := by
  rcases hr : s.sessions addr with _ | r
  · rfl
  · obtain ⟨d, hd, rfl⟩ := h.home addr r hr
    obtain ⟨o, ho, rfl⟩ := Option.map_eq_some_iff.mp hd
    rw [Object.tenant, hhome o (List.mem_of_getElem? ho), hnone] at hr
    cases hr

/-- The only session is given the only addresses, and evicted when it has been idle. No session
is left, all tasks are finished, and both pools count as used up. -/
theorem evicted_not_reused :
    let S := smallServer 0x0A08000A 16
    let p := smallPools 0x0A08000A 16
    let s := run (serve S) (Server.new p) evicting
    let w : World Plain := { poolWorld p with tab := s.tab }
    s.Idle ∧ (∀ addr, s.sessions addr = none) ∧
      (allocateIp S w).1 = .error (.bail "client IP pool exhausted") ∧
      (allocateIpV6 S w).1 = .error (.bail "client IPv6 pool exhausted") := by
  intro S p s w
  have hs : s.Idle ∧ s.sessions plainAddr = none ∧ (∀ o ∈ s.heap, o.home = plainAddr) ∧
      AllMeet (serve S) TakeTurns (Server.new p) evicting ∧
      (allocateIp S w).1 = .error (.bail "client IP pool exhausted") ∧
      (allocateIpV6 S w).1 = .error (.bail "client IPv6 pool exhausted") := by
    decide +kernel
  obtain ⟨hidle, hnone, hhome, hturns, h4, h6⟩ := hs
  have hord : Orderly s := (owning_run S p evicting hturns).1
  exact ⟨hidle, hord.gone hhome hnone, h4, h6⟩

end Javs
