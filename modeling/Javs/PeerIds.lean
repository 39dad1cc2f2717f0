import Javs.Server

/-!
Peer ids, and the workers that data packets are routed to.

A peer id is the low 24 bits of a counter, and nothing looks whether it is taken. As long as
no session is created under a peer id that a live session has, or one that some task still
has in hand, peer ids are distinct and every live session is reached under its own.
-/

namespace Javs

open Lib

variable {Conn : Type}

/-! ### What a task still has to do -/

/-- What a task has to do for a session with peer id `pid`: all entries are that session's,
`sessions` is seen to first, and a session that is entered is entered for its data too. -/
structure Plan (pid : UInt32) (todo : List MapOp) : Prop where
  own : ∀ op ∈ todo, ∀ p, op.pid? = some p → p = pid
  first : ∀ op ∈ todo.tail, op ≠ .insertSession ∧ op ≠ .removeSession
  enter : .insertSession ∈ todo → .insertData pid ∈ todo ∧ .removeData pid ∉ todo

lemma Plan.tail {pid : UInt32} {op : MapOp} {todo : List MapOp} (h : Plan pid (op :: todo)) :
    Plan pid todo where
  own o ho := h.own o (List.mem_cons_of_mem _ ho)
  first o ho := h.first o (List.mem_of_mem_tail ho)
  enter hi := absurd rfl (h.first .insertSession hi).1

lemma plan_insertOps (pid : UInt32) : Plan pid (insertOps pid) := by
  refine ⟨?_, ?_, ?_⟩ <;> simp [insertOps, MapOp.pid?]

lemma plan_removeOps (sess : Session Conn) : Plan sess.peerId (removeOps sess) where
  own op h p hp := by
    rcases (mem_removeOps h).1 with h | h <;> rw [h] at hp <;> cases hp
    rfl
  first op h := (mem_removeOps (List.mem_of_mem_tail h)).2
  enter h := absurd rfl (mem_removeOps h).2.1

lemma plan_removeAll (sess : Session Conn) :
    Plan sess.peerId (.removeSession :: removeOps sess) where
  own op h p hp := by
    rcases List.mem_cons.mp h with rfl | h
    · cases hp
    · exact (plan_removeOps sess).own op h p hp
  first op h := (mem_removeOps h).2
  enter h := by
    rcases List.mem_cons.mp h with h | h
    · cases h
    · exact absurd rfl (mem_removeOps h).2.1

/-! ### Peer ids in use -/

def Server.card (s : Server Conn) (r : Ref) : Option (SocketAddr × UInt32) :=
  (s.heap[r]?).map fun o => (o.home, o.sess.peerId)

/-- The session is live, or some task has it in hand. -/
def Server.Held (s : Server Conn) (r : Ref) : Prop :=
  (∃ addr, s.sessions addr = some r) ∨
    ∃ (i : ℕ) (t : Task), s.tasks[i]? = some (some t) ∧ t.stage.ref? = some r

structure Peered (s : Server Conn) : Prop where
  home : ∀ addr r, s.sessions addr = some r → ∃ pid, s.card r = some (addr, pid)
  hand : ∀ (i : ℕ) (t : Task) r, s.tasks[i]? = some (some t) → t.stage.ref? = some r →
    ∃ pid, s.card r = some (t.addr, pid)
  plan : ∀ (i : ℕ) (t : Task) r todo addr pid, s.tasks[i]? = some (some t) →
    t.stage = .ops r todo → s.card r = some (addr, pid) → Plan pid todo
  unique : ∀ r r' a a' pid, s.Held r → s.Held r' → s.card r = some (a, pid) →
    s.card r' = some (a', pid) → r = r'
  /-- A live session is reached under its peer id, or the task that creates it will see to
  that. -/
  route : ∀ addr r pid, s.sessions addr = some r → s.card r = some (addr, pid) →
    s.dataRoutes pid = some r ∨ ∃ (i : ℕ) (t : Task) (todo : List MapOp),
      s.tasks[i]? = some (some t) ∧ t.stage = .ops r todo ∧ .insertData pid ∈ todo
  /-- A session whose route is about to go is not live, or will not be by then. -/
  out : ∀ (i : ℕ) (t : Task) r todo pid, s.tasks[i]? = some (some t) → t.stage = .ops r todo →
    .removeData pid ∈ todo → .removeSession ∈ todo ∨ ∀ addr, s.sessions addr ≠ some r
  torn : ∀ (i : ℕ) (t : Task) r, s.tasks[i]? = some (some t) → t.stage = .teardown r →
    ∀ addr, s.sessions addr ≠ some r
  /-- A session that is not entered yet is known to the task that creates it only. -/
  fresh : ∀ (i : ℕ) (t : Task) r todo, s.tasks[i]? = some (some t) → t.stage = .ops r todo →
    .insertSession ∈ todo → (∀ addr, s.sessions addr ≠ some r) ∧
      ∀ (j : ℕ) (t' : Task), s.tasks[j]? = some (some t') → t'.stage.ref? = some r → j = i

section Steps

variable {s s' : Server Conn} {i : ℕ} {t : Task}

lemma Peered.card_of_held (h : Peered s) {r : Ref} (hr : s.Held r) : ∃ c, s.card r = some c := by
  rcases hr with ⟨addr, hs⟩ | ⟨i, t, ht, hr⟩
  · exact ⟨_, (h.home addr r hs).choose_spec⟩
  · exact ⟨_, (h.hand i t r ht hr).choose_spec⟩

/-- The stage `x` follows that of `t` without a new session in hand. -/
structure Follows (s s' : Server Conn) (t : Task) (x : Option Stage) : Prop where
  held : ∀ st r, x = some st → st.ref? = some r →
    t.stage.ref? = some r ∨ s.sessions t.addr = some r
  plan : ∀ r todo addr pid, x = some (.ops r todo) → s.card r = some (addr, pid) → Plan pid todo
  enter : ∀ r todo, x = some (.ops r todo) → .insertSession ∉ todo
  data : ∀ r todo pid, t.stage = .ops r todo → .insertData pid ∈ todo →
    s'.dataRoutes pid = some r ∨ ∃ todo', x = some (.ops r todo') ∧ .insertData pid ∈ todo'
  out : ∀ r todo pid, x = some (.ops r todo) → .removeData pid ∈ todo →
    .removeSession ∈ todo ∨ ∀ addr, s'.sessions addr ≠ some r
  torn : ∀ r, x = some (.teardown r) → ∀ addr, s'.sessions addr ≠ some r

lemma Peered.quiet (h : Peered s) (hi : s.tasks[i]? = some (some t)) {x : Option Stage}
    (htasks : s'.tasks = s.tasks.set i (x.map (⟨t.addr, ·⟩)))
    (hcard : ∀ r, s'.card r = s.card r)
    (hsess : ∀ addr r, s'.sessions addr = some r → s.sessions addr = some r)
    (hroute : ∀ addr r pid, s'.sessions addr = some r → s.card r = some (addr, pid) →
      s.dataRoutes pid = some r → s'.dataRoutes pid = some r)
    (hx : Follows s s' t x) : Peered s' := by
  have heldNew : ∀ st r, x = some st → st.ref? = some r → s.Held r := by
    intro st r hst hr
    rcases hx.held st r hst hr with hr | hs
    · exact .inr ⟨i, t, hi, hr⟩
    · exact .inl ⟨_, hs⟩
  have heldOf : ∀ r, s'.Held r → s.Held r := by
    rintro r (⟨addr, hs⟩ | ⟨j, t', hj, hr⟩)
    · exact .inl ⟨addr, hsess addr r hs⟩
    · rcases task_cases htasks hj with ⟨-, -, hst⟩ | ⟨-, hj⟩
      · exact heldNew _ r hst hr
      · exact .inr ⟨j, t', hj, hr⟩
  refine ⟨?home, ?hand, ?plan, ?unique, ?route, ?out, ?torn, ?fresh⟩
  case home =>
    intro addr r hs
    rw [hcard]
    exact h.home addr r (hsess addr r hs)
  case hand =>
    intro j t' r hj hr
    rw [hcard]
    rcases task_cases htasks hj with ⟨-, ha, hst⟩ | ⟨-, hj⟩
    · rw [ha]
      rcases hx.held _ r hst hr with hr | hs
      · exact h.hand i t r hi hr
      · exact h.home _ r hs
    · exact h.hand j t' r hj hr
  case plan =>
    intro j t' r todo addr pid hj hst hc
    rw [hcard] at hc
    rcases task_cases htasks hj with ⟨-, -, hx'⟩ | ⟨-, hj⟩
    · exact hx.plan r todo addr pid (hx'.trans (congrArg some hst)) hc
    · exact h.plan j t' r todo addr pid hj hst hc
  case unique =>
    intro r r' a a' pid hr hr' hc hc'
    rw [hcard] at hc hc'
    exact h.unique r r' a a' pid (heldOf r hr) (heldOf r' hr') hc hc'
  case route =>
    intro addr r pid hs hc
    rw [hcard] at hc
    rcases h.route addr r pid (hsess addr r hs) hc with hd | ⟨j, t', todo, hj, hst, hmem⟩
    · exact .inl (hroute addr r pid hs hc hd)
    -- the route may be owed by the task that moved, or by another one
    · by_cases hji : j = i
      · subst hji
        cases hi.symm.trans hj
        rcases hx.data r todo pid hst hmem with hd | ⟨todo', hx', hmem'⟩
        · exact .inl hd
        · subst hx'
          exact .inr ⟨j, ⟨t.addr, .ops r todo'⟩, todo', task_new hi htasks, rfl, hmem'⟩
      · exact .inr ⟨j, t', todo, (task_other htasks hji).trans hj, hst, hmem⟩
  case out =>
    intro j t' r todo pid hj hst hmem
    rcases task_cases htasks hj with ⟨-, -, hx'⟩ | ⟨-, hj⟩
    · exact hx.out r todo pid (hx'.trans (congrArg some hst)) hmem
    · exact (h.out j t' r todo pid hj hst hmem).imp_right fun hn addr hs => hn addr (hsess _ _ hs)
  case torn =>
    intro j t' r hj hst addr hs
    rcases task_cases htasks hj with ⟨-, -, hx'⟩ | ⟨-, hj⟩
    · exact hx.torn r (hx'.trans (congrArg some hst)) addr hs
    · exact h.torn j t' r hj hst addr (hsess addr r hs)
  case fresh =>
    intro j t' r todo hj hst hmem
    rcases task_cases htasks hj with ⟨-, -, hx'⟩ | ⟨hji, hj⟩
    · exact absurd hmem (hx.enter r todo (hx'.trans (congrArg some hst)))
    · obtain ⟨hns, honly⟩ := h.fresh j t' r todo hj hst hmem
      refine ⟨fun addr hs => hns addr (hsess addr r hs), fun k u hk hr => ?_⟩
      rcases task_cases htasks hk with ⟨-, -, hx'⟩ | ⟨-, hk⟩
      · -- the task at `i` cannot have got hold of a session that is not entered yet
        rcases hx.held _ r hx' hr with hr | hs
        · exact absurd (honly i t hi hr).symm hji
        · exact absurd hs (hns _)
      · exact honly k u hk hr

lemma card_append (s : Server Conn) (o : Object Conn) (next : UInt32) {r : Ref}
    {c : SocketAddr × UInt32} (hc : s.card r = some c) :
    { s with nextPeerId := next, heap := s.heap ++ [o] }.card r = some c := by
  unfold Server.card at hc ⊢
  obtain ⟨o', ho', rfl⟩ := Option.map_eq_some_iff.mp hc
  dsimp only
  rw [List.getElem?_append_left (List.getElem?_eq_some_iff.mp ho').1, ho']
  rfl

lemma Peered.create (h : Peered s) (hi : s.tasks[i]? = some (some t))
    (ht : t.stage.ref? = none) {o : Object Conn} {next : UInt32} (hh : o.home = t.addr)
    (ho : o.sess.peerId = s.newPeerId)
    (hfree : ∀ r a, s.Held r → s.card r ≠ some (a, s.newPeerId))
    (hs' : s' = { s with
      nextPeerId := next
      heap := s.heap ++ [o]
      tasks := s.tasks.set i (some ⟨t.addr, .ops s.heap.length (insertOps s.newPeerId)⟩) }) :
    Peered s' := by
  have htasks : s'.tasks = s.tasks.set i
      (some ⟨t.addr, .ops s.heap.length (insertOps s.newPeerId)⟩) := by rw [hs']
  have hsess : s'.sessions = s.sessions := by rw [hs']
  have hdata : s'.dataRoutes = s.dataRoutes := by rw [hs']
  -- the heap only grows at its end, so the old cards stay and the new one is last
  have hcard : ∀ {r c}, s.card r = some c → s'.card r = some c := fun hc => by
    rw [hs']
    exact card_append s o next hc
  have hnew : s'.card s.heap.length = some (t.addr, s.newPeerId) := by
    rw [hs', Server.card]
    simp [hh, ho]
  have hold : ∀ {r c}, s.card r = some c → r ≠ s.heap.length := by
    rintro r c hc rfl
    simp [Server.card] at hc
  have split : ∀ {j t'}, s'.tasks[j]? = some (some t') →
      (j = i ∧ t' = ⟨t.addr, .ops s.heap.length (insertOps s.newPeerId)⟩) ∨
        (j ≠ i ∧ s.tasks[j]? = some (some t')) := fun hj => by
    rw [htasks] at hj
    exact (getElem?_set_cases hj).imp_left fun ⟨hji, ht'⟩ => ⟨hji, (Option.some_inj.mp ht').symm⟩
  have heldOf : ∀ {r}, s'.Held r → r = s.heap.length ∨ s.Held r := by
    rintro r (⟨addr, hs⟩ | ⟨j, t', hj, hr⟩)
    · exact .inr (.inl ⟨addr, hsess ▸ hs⟩)
    · rcases split hj with ⟨-, rfl⟩ | ⟨-, hj⟩
      · cases hr
        exact .inl rfl
      · exact .inr (.inr ⟨j, t', hj, hr⟩)
  have back : ∀ {r c}, s.Held r → s'.card r = some c → s.card r = some c := fun hr hc => by
    obtain ⟨c', hc'⟩ := h.card_of_held hr
    cases (hcard hc').symm.trans hc
    exact hc'
  refine ⟨?home, ?hand, ?plan, ?unique, ?route, ?out, ?torn, ?fresh⟩
  case home =>
    intro addr r hs
    obtain ⟨pid, hc⟩ := h.home addr r (hsess ▸ hs)
    exact ⟨pid, hcard hc⟩
  case hand =>
    intro j t' r hj hr
    rcases split hj with ⟨-, rfl⟩ | ⟨-, hj⟩
    · cases hr
      exact ⟨_, hnew⟩
    · obtain ⟨pid, hc⟩ := h.hand j t' r hj hr
      exact ⟨pid, hcard hc⟩
  case plan =>
    intro j t' r todo addr pid hj hst hc
    rcases split hj with ⟨-, rfl⟩ | ⟨-, hj⟩
    · cases hst
      cases hnew.symm.trans hc
      exact plan_insertOps _
    · have hr : t'.stage.ref? = some r := by rw [hst]; rfl
      exact h.plan j t' r todo addr pid hj hst (back (.inr ⟨j, t', hj, hr⟩) hc)
  case unique =>
    intro r r' a a' pid hr hr' hc hc'
    rcases heldOf hr with rfl | hr <;> rcases heldOf hr' with rfl | hr'
    · rfl
    -- the id handed out belongs to no session that is still held
    · cases hnew.symm.trans hc
      exact absurd (back hr' hc') (hfree r' a' hr')
    · cases hnew.symm.trans hc'
      exact absurd (back hr hc) (hfree r a hr)
    · exact h.unique r r' a a' pid hr hr' (back hr hc) (back hr' hc')
  case route =>
    intro addr r pid hs hc
    rw [hsess] at hs
    rw [hdata]
    rcases h.route addr r pid hs (back (.inl ⟨addr, hs⟩) hc) with hd | ⟨j, t', todo, hj, hst, hm⟩
    · exact .inl hd
    · refine .inr ⟨j, t', todo, ?_, hst, hm⟩
      rw [task_other htasks, hj]
      rintro rfl
      cases hi.symm.trans hj
      rw [hst] at ht
      cases ht
  case out =>
    intro j t' r todo pid hj hst hmem
    rw [hsess]
    rcases split hj with ⟨-, rfl⟩ | ⟨-, hj⟩
    · cases hst
      simp [insertOps] at hmem
    · exact h.out j t' r todo pid hj hst hmem
  case torn =>
    intro j t' r hj hst
    rw [hsess]
    rcases split hj with ⟨-, rfl⟩ | ⟨-, hj⟩
    · cases hst
    · exact h.torn j t' r hj hst
  case fresh =>
    intro j t' r todo hj hst hmem
    rw [hsess]
    rcases split hj with ⟨rfl, rfl⟩ | ⟨hji, hj⟩
    · cases hst
      refine ⟨fun addr hs => ?_, fun k u hk hr => ?_⟩
      -- a reference past the heap is in no table and in no hand
      · exact hold (h.home addr _ hs).choose_spec rfl
      · rcases split hk with ⟨hkj, -⟩ | ⟨-, hk⟩
        · exact hkj
        · exact absurd rfl (hold (h.hand k u _ hk hr).choose_spec)
    · obtain ⟨hns, honly⟩ := h.fresh j t' r todo hj hst hmem
      refine ⟨hns, fun k u hk hr => ?_⟩
      rcases split hk with ⟨-, rfl⟩ | ⟨-, hk⟩
      · cases hr
        have hr' : t'.stage.ref? = some s.heap.length := by rw [hst]; rfl
        exact absurd rfl (hold (h.hand j t' _ hj hr').choose_spec)
      · exact honly k u hk hr

lemma Peered.enter (h : Peered s) (hi : s.tasks[i]? = some (some t)) {r : Ref}
    {todo : List MapOp} (ht : t.stage = .ops r (.insertSession :: todo))
    (hs' : s' = { s with
      sessions := Function.update s.sessions t.addr (some r)
      tasks := s.tasks.set i (some ⟨t.addr, .ops r todo⟩) }) : Peered s' := by
  have htasks : s'.tasks = s.tasks.set i ((some (Stage.ops r todo)).map (⟨t.addr, ·⟩)) := by
    rw [hs']
    rfl
  have hcard : ∀ r, s'.card r = s.card r := fun r => by rw [hs']; rfl
  have hdata : s'.dataRoutes = s.dataRoutes := by rw [hs']
  have hr : t.stage.ref? = some r := by rw [ht]; rfl
  obtain ⟨pid, hc⟩ := h.hand i t r hi hr
  have hplan := h.plan i t r _ _ pid hi ht hc
  obtain ⟨-, honly⟩ := h.fresh i t r _ hi ht (List.mem_cons_self ..)
  have hsess : ∀ {addr q}, s'.sessions addr = some q →
      (addr = t.addr ∧ q = r) ∨ (addr ≠ t.addr ∧ s.sessions addr = some q) := by
    intro addr q hs
    rw [hs'] at hs
    dsimp only at hs
    by_cases ha : addr = t.addr
    · subst ha
      rw [Function.update_self] at hs
      cases hs
      exact .inl ⟨rfl, rfl⟩
    · rw [Function.update_of_ne ha] at hs
      exact .inr ⟨ha, hs⟩
  have refNew : ∀ {t' : Task} {q}, some (Stage.ops r todo) = some t'.stage →
      t'.stage.ref? = some q → q = r := by
    intro t' q hx hq
    rw [← Option.some_inj.mp hx] at hq
    exact (Option.some_inj.mp hq).symm
  have heldOf : ∀ {q}, s'.Held q → s.Held q := by
    rintro q (⟨addr, hs⟩ | ⟨j, t', hj, hq⟩)
    · rcases hsess hs with ⟨-, rfl⟩ | ⟨-, hs⟩
      · exact .inr ⟨i, t, hi, hr⟩
      · exact .inl ⟨addr, hs⟩
    · rcases task_cases htasks hj with ⟨-, -, hst⟩ | ⟨-, hj⟩
      · obtain rfl := refNew hst hq
        exact .inr ⟨i, t, hi, hr⟩
      · exact .inr ⟨j, t', hj, hq⟩
  -- no other task has in hand the session that is entered
  have other : ∀ {j t' q addr}, j ≠ i → s.tasks[j]? = some (some t') → t'.stage.ref? = some q →
      s'.sessions addr = some q → s.sessions addr = some q := by
    intro j t' q addr hji hj hq hs
    rcases hsess hs with ⟨-, rfl⟩ | ⟨-, hs⟩
    · exact absurd (honly j t' hj hq) hji
    · exact hs
  refine ⟨?home, ?hand, ?plan, ?unique, ?route, ?out, ?torn, ?fresh⟩
  case home =>
    intro addr q hs
    rw [hcard]
    rcases hsess hs with ⟨rfl, rfl⟩ | ⟨-, hs⟩
    · exact ⟨pid, hc⟩
    · exact h.home addr q hs
  case hand =>
    intro j t' q hj hq
    rw [hcard]
    rcases task_cases htasks hj with ⟨-, ha, hst⟩ | ⟨-, hj⟩
    · obtain rfl := refNew hst hq
      exact ⟨pid, ha ▸ hc⟩
    · exact h.hand j t' q hj hq
  case plan =>
    intro j t' q todo' addr p hj hst hq
    rw [hcard] at hq
    rcases task_cases htasks hj with ⟨-, -, hx⟩ | ⟨-, hj⟩
    · cases hx.trans (congrArg some hst)
      cases hc.symm.trans hq
      exact hplan.tail
    · exact h.plan j t' q todo' addr p hj hst hq
  case unique =>
    intro q q' a a' p hq hq' hcq hcq'
    rw [hcard] at hcq hcq'
    exact h.unique q q' a a' p (heldOf hq) (heldOf hq') hcq hcq'
  case route =>
    intro addr q p hs hq
    rw [hcard] at hq
    rw [hdata]
    rcases hsess hs with ⟨rfl, rfl⟩ | ⟨-, hs⟩
    · cases hc.symm.trans hq
      have hmem := (hplan.enter (List.mem_cons_self ..)).1
      rcases List.mem_cons.mp hmem with he | hmem
      · cases he
      · exact .inr ⟨i, ⟨t.addr, .ops q todo⟩, todo, task_new hi htasks, rfl, hmem⟩
    · rcases h.route addr q p hs hq with hd | ⟨j, t', todo', hj, hst, hmem⟩
      · exact .inl hd
      · by_cases hji : j = i
        · subst hji
          cases hi.symm.trans hj
          cases ht.symm.trans hst
          rcases List.mem_cons.mp hmem with he | hmem
          · cases he
          · exact .inr ⟨j, ⟨t.addr, .ops r todo⟩, todo, task_new hi htasks, rfl, hmem⟩
        · exact .inr ⟨j, t', todo', (task_other htasks hji).trans hj, hst, hmem⟩
  case out =>
    intro j t' q todo' p hj hst hmem
    rcases task_cases htasks hj with ⟨-, -, hx⟩ | ⟨hji, hj⟩
    · cases hx.trans (congrArg some hst)
      have hp := hplan.own (.removeData p) (List.mem_cons_of_mem _ hmem) p rfl
      subst hp
      exact absurd (List.mem_cons_of_mem _ hmem) (hplan.enter (List.mem_cons_self ..)).2
    · exact (h.out j t' q todo' p hj hst hmem).imp_right fun hn addr hs =>
        hn addr (other hji hj (by rw [hst]; rfl) hs)
  case torn =>
    intro j t' q hj hst addr hs
    rcases task_cases htasks hj with ⟨-, -, hx⟩ | ⟨hji, hj⟩
    · cases hx.trans (congrArg some hst)
    · exact h.torn j t' q hj hst addr (other hji hj (by rw [hst]; rfl) hs)
  case fresh =>
    intro j t' q todo' hj hst hmem
    rcases task_cases htasks hj with ⟨-, -, hx⟩ | ⟨hji, hj⟩
    · cases hx.trans (congrArg some hst)
      exact absurd rfl (hplan.first .insertSession hmem).1
    · obtain ⟨hns, honly'⟩ := h.fresh j t' q todo' hj hst hmem
      refine ⟨fun addr hs => ?_, fun k u hk hq => ?_⟩
      · exact hns addr (other hji hj (by rw [hst]; rfl) hs)
      · rcases task_cases htasks hk with ⟨rfl, -, hx⟩ | ⟨-, hk⟩
        · obtain rfl := refNew hx hq
          exact honly' k t hi hr
        · exact honly' k u hk hq

lemma Peered.retask (h : Peered s) (hi : s.tasks[i]? = some (some t)) {x : Option Stage}
    (hx : Follows s s t x) :
    Peered { s with tasks := s.tasks.set i (x.map (⟨t.addr, ·⟩)) } := by
  refine h.quiet (x := x) hi rfl (fun _ => rfl) (fun _ _ hs => hs) (fun _ _ _ _ _ hd => hd) ?_
  exact ⟨hx.held, hx.plan, hx.enter, hx.data, hx.out, hx.torn⟩

lemma sessions_remove {addr a : SocketAddr} {q : Ref}
    (hs : Function.update s.sessions a none addr = some q) :
    addr ≠ a ∧ s.sessions addr = some q := by
  by_cases ha : addr = a
  · rw [ha, Function.update_self] at hs
    cases hs
  · rw [Function.update_of_ne ha] at hs
    exact ⟨ha, hs⟩

lemma Peered.removed (h : Peered s) {a : SocketAddr} {r : Ref} {pid : UInt32}
    (hc : s.card r = some (a, pid)) (addr : SocketAddr) :
    Function.update s.sessions a none addr ≠ some r := by
  intro hs
  obtain ⟨ha, hs⟩ := sessions_remove hs
  obtain ⟨pid', hc'⟩ := h.home addr r hs
  cases hc.symm.trans hc'
  exact ha rfl

lemma follows_of (s s' : Server Conn) {x : Option Stage}
    (hdone : ∀ r todo, t.stage = .ops r todo → todo = [])
    (hops : ∀ r todo, x ≠ some (.ops r todo)) (htorn : ∀ r, x ≠ some (.teardown r))
    (hheld : ∀ st r, x = some st → st.ref? = some r →
      t.stage.ref? = some r ∨ s.sessions t.addr = some r) : Follows s s' t x where
  held := hheld
  plan r todo _ _ hx := absurd hx (hops r todo)
  enter r todo hx := absurd hx (hops r todo)
  data r todo pid ht hmem := by
    rw [hdone r todo ht] at hmem
    cases hmem
  out r todo _ hx := absurd hx (hops r todo)
  torn r hx := absurd hx (htorn r)

lemma follows_removal {r : Ref} {o : Object Conn} {todo : List MapOp}
    (hr : t.stage.ref? = some r) (hops : ∀ r todo, t.stage ≠ .ops r todo)
    (ho : s.heap[r]? = some o) (hplan : Plan o.sess.peerId todo) (hins : .insertSession ∉ todo)
    (hout : .removeSession ∈ todo ∨ ∀ addr, s.sessions addr ≠ some r) :
    Follows s s t (some (.ops r todo)) where
  held st q hst hq := by
    cases hst
    cases hq
    exact .inl hr
  plan q todo' addr pid hx hc := by
    cases hx
    rw [Server.card, ho] at hc
    cases hc
    exact hplan
  enter q todo' hx := by
    cases hx
    exact hins
  data q todo' _ ht := absurd ht (hops q todo')
  out q todo' _ hx _ := by
    cases hx
    exact hout
  torn q hx := by cases hx

lemma Peered.follows_op (h : Peered s) (hi : s.tasks[i]? = some (some t)) {r : Ref} {op : MapOp}
    {todo : List MapOp} (ht : t.stage = .ops r (op :: todo)) {s' : Server Conn}
    (hdata : ∀ pid, op = .insertData pid → s'.dataRoutes pid = some r)
    (hsess : ∀ addr q, s'.sessions addr = some q → s.sessions addr = some q)
    (hgone : op = .removeSession → ∀ addr, s'.sessions addr ≠ some r) :
    Follows s s' t (some (.ops r todo)) := by
  have hr : t.stage.ref? = some r := by rw [ht]; rfl
  obtain ⟨pid, hc⟩ := h.hand i t r hi hr
  have hplan := h.plan i t r _ _ pid hi ht hc
  refine ⟨?held, ?plan, ?enter, ?data, ?out, by simp⟩
  case held =>
    rintro st q ⟨⟩ hq
    cases hq
    exact .inl hr
  case plan =>
    rintro q todo' addr p ⟨⟩ hcq
    cases hc.symm.trans hcq
    exact hplan.tail
  case enter =>
    rintro q todo' ⟨⟩ hmem
    exact (hplan.first .insertSession hmem).1 rfl
  case data =>
    intro q todo' p ht' hmem
    cases ht.symm.trans ht'
    rcases List.mem_cons.mp hmem with he | hmem
    · exact .inl (hdata p he.symm)
    · exact .inr ⟨todo, rfl, hmem⟩
  case out =>
    rintro q todo' p ⟨⟩ hmem
    right
    rcases h.out i t r _ p hi ht (List.mem_cons_of_mem _ hmem) with hin | hn
    -- the removal from the session table comes first in its plan
    · rcases List.mem_cons.mp hin with he | hin
      · exact hgone he.symm
      · exact absurd rfl (hplan.first .removeSession hin).2
    · exact fun addr hs => hn addr (hsess addr r hs)

lemma card_set (s : Server Conn) {r : Ref} {o o' : Object Conn} (tab : Tables)
    (ho : s.heap[r]? = some o) (hh : o'.home = o.home) (hp : o'.sess.peerId = o.sess.peerId)
    (q : Ref) : { s with heap := s.heap.set r o', tab }.card q = s.card q := by
  unfold Server.card
  dsimp only
  by_cases hq : q = r
  · subst hq
    rw [List.getElem?_set_self (List.getElem?_eq_some_iff.mp ho).1, ho, Option.map_some,
      Option.map_some, hh, hp]
  · rw [List.getElem?_set_ne (Ne.symm hq)]

lemma Peered.op (h : Peered s) (hi : s.tasks[i]? = some (some t)) {r : Ref} {op : MapOp}
    {todo : List MapOp} (ht : t.stage = .ops r (op :: todo)) :
    Peered { op.run t.addr r s with tasks := s.tasks.set i (some ⟨t.addr, .ops r todo⟩) } := by
  have hr : t.stage.ref? = some r := by rw [ht]; rfl
  obtain ⟨pid, hc⟩ := h.hand i t r hi hr
  have hplan := h.plan i t r _ _ pid hi ht hc
  have hheld : s.Held r := .inr ⟨i, t, hi, hr⟩
  cases op with
  | insertSession => exact h.enter hi ht rfl
  | insertPeer | removePeer | removeRoute | removeRouteV6 =>
    refine h.quiet (x := some (.ops r todo)) hi rfl (fun _ => rfl) (fun _ _ hs => hs)
      (fun _ _ _ _ _ hd => hd) ?_
    exact h.follows_op hi ht (by simp) (fun _ _ hs => hs) (by simp)
  | insertData p =>
    obtain rfl := hplan.own (.insertData p) (List.mem_cons_self ..) p rfl
    refine h.quiet (x := some (.ops r todo)) hi rfl (fun _ => rfl) (fun _ _ hs => hs)
      (fun addr q p' hs hq hd => ?_)
      (h.follows_op hi ht ?_ (fun _ _ hs => hs) (by simp))
    · by_cases hp : p' = p
      · subst hp
        rw [h.unique q r addr _ p' (.inl ⟨addr, hs⟩) hheld hq hc]
        exact Function.update_self ..
      · exact (Function.update_of_ne hp _ _).trans hd
    · rintro p' ⟨⟩
      exact Function.update_self ..
  | removeSession =>
    exact h.quiet (x := some (.ops r todo)) hi rfl (fun _ => rfl)
      (fun _ _ hs => (sessions_remove hs).2) (fun _ _ _ _ _ hd => hd)
      (h.follows_op hi ht (by simp) (fun _ _ hs => (sessions_remove hs).2) fun _ => h.removed hc)
  | removeData p =>
    obtain rfl := hplan.own (.removeData p) (List.mem_cons_self ..) p rfl
    refine h.quiet (x := some (.ops r todo)) hi rfl (fun _ => rfl) (fun _ _ hs => hs)
      (fun addr q p' hs hq hd => ?_)
      (h.follows_op hi ht (by simp) (fun _ _ hs => hs) (by simp))
    -- only its own session could be live under this peer id, and it is not live any more
    have hp : p' ≠ p := by
      rintro rfl
      obtain rfl := h.unique q r addr _ p' (.inl ⟨addr, hs⟩) hheld hq hc
      rcases h.out i t q _ p' hi ht (List.mem_cons_self ..) with hin | hn
      · rcases List.mem_cons.mp hin with he | hin
        · cases he
        · exact (hplan.first .removeSession hin).2 rfl
      · exact hn addr hs
    exact (Function.update_of_ne hp _ _).trans hd

lemma Peered.acts (h : Peered s) (hi : s.tasks[i]? = some (some t)) {x : Option Stage}
    (ha : Acts s t s' x)
    (hfree : ∀ ctrl replayPid transport, t.stage = .create ctrl replayPid transport →
      ∀ r a, s.Held r → s.card r ≠ some (a, s.newPeerId)) :
    Peered { s' with tasks := s.tasks.set i (x.map (⟨t.addr, ·⟩)) } := by
  cases ha with
  | unknown ht hn | known ht =>
    refine h.retask hi (follows_of s s (by simp [ht]) (by simp) (by simp) ?_)
    rintro st r ⟨⟩ hr
    cases hr
  | notCreated ht next =>
    exact h.quiet (x := none) hi rfl (fun _ => rfl) (fun _ _ hs => hs) (fun _ _ _ _ _ hd => hd)
      (follows_of s _ (by simp [ht]) (by simp) (by simp) (by simp))
  | created ht next o hh ho =>
    exact h.create hi (by rw [ht]; rfl) hh (congrArg Holding.peerId ho) (hfree _ _ _ ht) rfl
  | missing ht hn =>
    refine h.retask hi (follows_of s s (fun r todo hst => ?_) (by simp) (by simp) (by simp))
    rw [hst] at ht
    cases ht
  | found ht ref hs | visited ht ref hs =>
    refine h.retask hi (follows_of s s (by simp [ht]) (by simp) (by simp) ?_)
    rintro st r ⟨⟩ hr
    cases hr
    exact .inr hs
  | handled ht o o' tab ho hh ha =>
    exact h.quiet (x := none) hi rfl (card_set s tab ho hh ha.peerId) (fun _ _ hs => hs)
      (fun _ _ _ _ _ hd => hd) (follows_of s _ (by simp [ht]) (by simp) (by simp) (by simp))
  | spared ht => exact h.retask hi (follows_of s s (by simp [ht]) (by simp) (by simp) (by simp))
  | reaped ht o ho =>
    refine h.retask hi (follows_removal (by rw [ht]; rfl) (by simp [ht]) ho (plan_removeAll _) ?_
      (.inl (List.mem_cons_self ..)))
    simpa using fun hm => (mem_removeOps hm).2.1 rfl
  -- `remove` of the session table is the first step of a teardown
  | closed ht ref hs =>
    obtain ⟨pid, hc⟩ := h.home _ _ hs
    refine h.quiet (x := some (.teardown ref)) hi rfl (fun _ => rfl)
      (fun _ _ hs => (sessions_remove hs).2) (fun _ _ _ _ _ hd => hd)
      ⟨?_, by simp, by simp, by simp [ht], by simp, ?_⟩
    · rintro st r ⟨⟩ hr
      cases hr
      exact .inr hs
    · rintro r ⟨⟩
      exact h.removed hc
  | torn ht o ho =>
    exact h.retask hi (follows_removal (by rw [ht]; rfl) (by simp [ht]) ho (plan_removeOps _)
      (fun hm => (mem_removeOps hm).2.1 rfl) (.inr (h.torn i t _ hi ht)))
  | done ht =>
    refine h.retask hi (follows_of s s (fun r todo hst => ?_) (by simp) (by simp) (by simp))
    cases ht.symm.trans hst
    rfl
  | op ht => exact h.op hi ht
  | lost ht hn =>
    obtain ⟨pid, hc⟩ := h.hand i t _ hi ht
    rw [Server.card, hn] at hc
    cases hc

end Steps

lemma Peered.congr {s s' : Server Conn} (h : Peered s) (hcard : ∀ r, s'.card r = s.card r)
    (hsess : s'.sessions = s.sessions) (hdata : s'.dataRoutes = s.dataRoutes)
    (hkeep : ∀ (j : ℕ) (t : Task), s.tasks[j]? = some (some t) → s'.tasks[j]? = some (some t))
    (hback : ∀ (j : ℕ) (t : Task) r, s'.tasks[j]? = some (some t) → t.stage.ref? = some r →
      s.tasks[j]? = some (some t)) : Peered s' := by
  have hops : ∀ {j : ℕ} {t : Task} {r todo}, s'.tasks[j]? = some (some t) →
      t.stage = .ops r todo → s.tasks[j]? = some (some t) := fun {j t r todo} hj hst =>
    hback j t r hj (by rw [hst]; rfl)
  have hheld : ∀ {r}, s'.Held r → s.Held r := by
    rintro r (⟨addr, hs⟩ | ⟨j, t, hj, hr⟩)
    · exact .inl ⟨addr, hsess ▸ hs⟩
    · exact .inr ⟨j, t, hback j t r hj hr, hr⟩
  refine ⟨?home, ?hand, ?plan, ?unique, ?route, ?out, ?torn, ?fresh⟩
  case home =>
    intro addr r hs
    rw [hcard]
    exact h.home addr r (hsess ▸ hs)
  case hand =>
    intro j t r hj hr
    rw [hcard]
    exact h.hand j t r (hback j t r hj hr) hr
  case plan =>
    intro j t r todo addr pid hj hst hc
    rw [hcard] at hc
    exact h.plan j t r todo addr pid (hops hj hst) hst hc
  case unique =>
    intro r r' a a' pid hr hr' hc hc'
    rw [hcard] at hc hc'
    exact h.unique r r' a a' pid (hheld hr) (hheld hr') hc hc'
  case route =>
    intro addr r pid hs hc
    rw [hcard] at hc
    rw [hdata]
    rcases h.route addr r pid (hsess ▸ hs) hc with hd | ⟨j, t, todo, hj, hst, hm⟩
    · exact .inl hd
    · exact .inr ⟨j, t, todo, hkeep j t hj, hst, hm⟩
  case out =>
    intro j t r todo pid hj hst hm
    rw [hsess]
    exact h.out j t r todo pid (hops hj hst) hst hm
  case torn =>
    intro j t r hj hst
    rw [hsess]
    exact h.torn j t r (hback j t r hj (by rw [hst]; rfl)) hst
  case fresh =>
    intro j t r todo hj hst hm
    rw [hsess]
    obtain ⟨hns, honly⟩ := h.fresh j t r todo (hops hj hst) hst hm
    exact ⟨hns, fun k u hk hr => honly k u (hback k u r hk hr) hr⟩

/-! ### Runs -/

/-- Some session that is live, or in the hands of a task, has the peer id. -/
def Server.inUse (s : Server Conn) (pid : UInt32) : Bool :=
  s.heap.zipIdx.any fun x => x.1.sess.peerId = pid &&
    (s.sessions x.1.home = some x.2 ||
      s.tasks.any fun t => t.any fun t => t.stage.ref? = some x.2)

def Server.creating (s : Server Conn) (i : ℕ) : Bool :=
  match s.tasks[i]? with
  | some (some ⟨_, .create ..⟩) => true
  | _ => false

/-- A session is created only under a peer id that is not in use. -/
def FreshPeerId (s : Server Conn) : ServerEvent Conn → Prop
  | .advance i _ => s.creating i = true → s.inUse s.newPeerId = false
  | _ => True

instance (s : Server Conn) (e : ServerEvent Conn) : Decidable (FreshPeerId s e) := by
  unfold FreshPeerId
  split <;> infer_instance

lemma Peered.inUse_of_held {s : Server Conn} (h : Peered s) {r : Ref} {a : SocketAddr}
    {pid : UInt32} (hr : s.Held r) (hc : s.card r = some (a, pid)) : s.inUse pid = true := by
  obtain ⟨o, ho, heq⟩ := Option.map_eq_some_iff.mp hc
  obtain ⟨rfl, rfl⟩ := Prod.mk.inj heq
  unfold Server.inUse
  rw [List.any_eq_true]
  refine ⟨(o, r), List.mem_zipIdx_iff_getElem?.mpr ho, ?_⟩
  rw [Bool.and_eq_true, Bool.or_eq_true, decide_eq_true_eq, decide_eq_true_eq]
  refine ⟨rfl, ?_⟩
  rcases hr with ⟨addr, hs⟩ | ⟨i, t, ht, hr⟩
  · obtain ⟨pid, hc'⟩ := h.home addr r hs
    cases hc.symm.trans hc'
    exact .inl hs
  · refine .inr (List.any_eq_true.mpr ⟨some t, List.mem_of_getElem? ht, ?_⟩)
    simpa using hr

lemma Peered.serve {s s' : Server Conn} {e : ServerEvent Conn} (h : Peered s)
    (hc : FreshPeerId s e) (hs : Serves s e s') : Peered s' := by
  cases hs with
  | idle => exact h
  | @advanced i env t s' stage ht ha =>
    refine h.acts ht ha fun ctrl replayPid transport hst r a hr hcard => ?_
    have hcr : s.creating i = true := by
      unfold Server.creating
      rw [ht]
      rcases t with ⟨addr, st⟩
      cases hst
      rfl
    have hfalse := hc hcr
    rw [h.inUse_of_held hr hcard] at hfalse
    cases hfalse
  | touched ref o o' ho hh hold =>
    exact h.congr (card_set s s.tab ho hh (congrArg Holding.peerId hold)) rfl rfl
      (fun _ _ hj => hj) fun _ _ _ hj _ => hj
  | spawned addr stage hr he =>
    refine h.congr (fun _ => rfl) rfl rfl (fun _ _ hj => spawn_task hj) fun j t r hj hr' => ?_
    rcases spawn_cases hj with ⟨-, rfl⟩ | hj
    · rw [Stage.ref?_of_isFirst hr] at hr'
      cases hr'
    · exact hj

lemma peered_new (p : Pools) : Peered (Server.new p : Server Conn) := by
  refine ⟨?_, ?_, ?_, ?_, ?_, ?_, ?_, ?_⟩ <;> simp [Server.new, Server.Held]

/-- The session is entered into the maps, and all of its entries have been made. -/
def Server.Live (s : Server Conn) (addr : SocketAddr) (r : Ref) (o : Object Conn) : Prop :=
  s.sessions addr = some r ∧ s.heap[r]? = some o ∧
    ∀ t, some t ∈ s.tasks → ∀ todo, t.stage = .ops r todo → .insertData o.sess.peerId ∉ todo

/-- **Peer ids.** In every run in which no session is created under a peer id in use, distinct
sessions have distinct peer ids, and data packets with the peer id of a live session go to
the worker of that session. -/
theorem peerIds_distinct (S : VpnServer Conn) (p : Pools) (es : List (ServerEvent Conn))
    (hc : AllMeet (serve S) FreshPeerId (Server.new p) es) :
    let s := run (serve S) (Server.new p) es
    (∀ addr₁ addr₂ r₁ r₂ o₁ o₂, s.sessions addr₁ = some r₁ → s.heap[r₁]? = some o₁ →
      s.sessions addr₂ = some r₂ → s.heap[r₂]? = some o₂ → o₁.sess.peerId = o₂.sess.peerId →
      addr₁ = addr₂) ∧
    ∀ addr r o, s.Live addr r o → s.dataRoutes o.sess.peerId = some r ∧
      ∀ pkt dp, DataPacketV2.parse pkt = .ok dp → dp.peerId = o.sess.peerId →
        s.routeData pkt = some r := by
  intro s
  have h : Peered s := run_keeps (fun s e hs hce => hs.serve hce (serve_serves S s e))
    (peered_new p) hc
  have hcard : ∀ {r o}, s.heap[r]? = some o → s.card r = some (o.home, o.sess.peerId) :=
    fun ho => by rw [Server.card, ho]; rfl
  constructor
  · intro addr₁ addr₂ r₁ r₂ o₁ o₂ hs₁ ho₁ hs₂ ho₂ hpid
    have hr := h.unique r₁ r₂ _ _ _ (.inl ⟨addr₁, hs₁⟩) (.inl ⟨addr₂, hs₂⟩) (hcard ho₁)
      (hpid ▸ hcard ho₂)
    subst hr
    obtain ⟨p₁, hc₁⟩ := h.home addr₁ r₁ hs₁
    obtain ⟨p₂, hc₂⟩ := h.home addr₂ r₁ hs₂
    cases hc₁.symm.trans hc₂
    rfl
  · rintro addr r o ⟨hs, ho, hdone⟩
    have hd : s.dataRoutes o.sess.peerId = some r := by
      obtain ⟨pid, hc'⟩ := h.home addr r hs
      cases (hcard ho).symm.trans hc'
      -- no task still owes the route of a session that is live
      rcases h.route _ r _ hs hc' with hd | ⟨j, t, todo, hj, hst, hm⟩
      · exact hd
      · exact absurd hm (hdone t (List.mem_of_getElem? hj) todo hst)
    refine ⟨hd, fun pkt dp hp hpid => ?_⟩
    unfold Server.routeData
    rw [hp, ← hd, ← hpid]

/-! ### A counter that comes round -/

def passerAddr : SocketAddr := ⟨.v4 0xC0000202, 40000⟩

def greeted (addr : SocketAddr) (transport : Transport) (peerId : UInt32) : Object Plain :=
  ⟨addr, (started plainServer { plainOpening with peerId, transport }).sess⟩

def leaving (addr : SocketAddr) (i : ℕ) : List (ServerEvent Plain) :=
  .close addr :: List.replicate 5 (.advance i (plainEnv 1))

theorem peerIds_distinct_two :
    let s := run (serve plainServer) (Server.new plainPools)
      (connecting (plainEnv 1) plainAddr (.udp plainAddr) 0 ++
        connecting (plainEnv 1) otherAddr (.udp otherAddr) 1)
    s.sessions plainAddr = some 0 ∧ s.sessions otherAddr = some 1 ∧
    (∀ addr₁ addr₂ r₁ r₂ o₁ o₂, s.sessions addr₁ = some r₁ → s.heap[r₁]? = some o₁ →
      s.sessions addr₂ = some r₂ → s.heap[r₂]? = some o₂ → o₁.sess.peerId = o₂.sess.peerId →
      addr₁ = addr₂) ∧
    ∀ addr r o, s.Live addr r o → s.dataRoutes o.sess.peerId = some r ∧
      ∀ pkt dp, DataPacketV2.parse pkt = .ok dp → dp.peerId = o.sess.peerId →
        s.routeData pkt = some r :=
  ⟨by decide +kernel, by decide +kernel,
    peerIds_distinct plainServer plainPools _ (by decide +kernel)⟩

lemma createSession_plain (s : Server Plain) (addr : SocketAddr) (transport : Transport) :
    createSession plainServer (plainEnv 1) s addr clientReset none transport =
      ({ s with nextPeerId := s.nextPeerId + 1,
                heap := s.heap ++ [greeted addr transport s.newPeerId] },
        some (.ops s.heap.length (insertOps s.newPeerId))) :=
  rfl

lemma run_connecting {s : Server Plain} (addr : SocketAddr) (transport : Transport)
    (hs : s.sessions addr = none) :
    run (serve plainServer) s (connecting (plainEnv 1) addr transport s.tasks.length) =
      { s with
        heap := s.heap ++ [greeted addr transport s.newPeerId]
        sessions := Function.update s.sessions addr (some s.heap.length)
        peers := Function.update s.peers s.newPeerId (some addr)
        dataRoutes := Function.update s.dataRoutes s.newPeerId (some s.heap.length)
        nextPeerId := s.nextPeerId + 1
        tasks := s.tasks ++ [none] } := by
  have hop : clientReset.op.isHardResetClient = true := rfl
  simp [connecting, List.replicate, serve, Server.spawn, Task.next, hs, hop, createSession_plain,
    insertOps, MapOp.run, Server.newPeerId]

lemma run_leaving {s : Server Plain} {r : Ref} (addr : SocketAddr) (transport : Transport)
    (pid : UInt32) (hs : s.sessions addr = some r)
    (ho : s.heap[r]? = some (greeted addr transport pid)) :
    run (serve plainServer) s (leaving addr s.tasks.length) =
      { s with
        sessions := Function.update s.sessions addr none
        peers := Function.update s.peers pid none
        dataRoutes := Function.update s.dataRoutes pid none
        tasks := s.tasks ++ [none] } := by
  have hops : removeOps (greeted addr transport pid).sess = [.removePeer pid, .removeData pid] :=
    rfl
  simp [leaving, List.replicate, serve, Server.spawn, Task.next, hs, ho, hops, MapOp.run]

lemma run_comeAndGo {s s' : Server Plain} (hs : s.sessions passerAddr = none)
    (hs' : s' = run (serve plainServer) s
      (connecting (plainEnv 1) passerAddr (.tcp 9) s.tasks.length ++
        leaving passerAddr (s.tasks.length + 1))) :
    s'.sessions = s.sessions ∧ s.heap <+: s'.heap ∧ s'.nextPeerId = s.nextPeerId + 1 ∧
      s'.tasks = s.tasks ++ List.replicate 2 none := by
  obtain ⟨c, hc⟩ : ∃ c, c = run (serve plainServer) s
    (connecting (plainEnv 1) passerAddr (.tcp 9) s.tasks.length) := ⟨_, rfl⟩
  rw [run_append, ← hc] at hs'
  rw [run_connecting passerAddr (.tcp 9) hs] at hc
  have hlen : c.tasks.length = s.tasks.length + 1 := by simp [hc]
  have hleave := run_leaving (s := c) (r := s.heap.length) passerAddr (.tcp 9) s.newPeerId
    (by simp [hc]) (by simp [hc])
  rw [hs', ← hlen, hleave, hc]
  refine ⟨?_, List.prefix_append _ _, rfl, by simp [List.replicate]⟩
  rw [Function.update_idem, Function.update_eq_self_iff, hs]

def passing : ℕ → ℕ → List (ServerEvent Plain)
  | 0, _ => []
  | n + 1, i =>
    connecting (plainEnv 1) passerAddr (.tcp 9) i ++ leaving passerAddr (i + 1) ++ passing n (i + 2)

lemma run_passing (n : ℕ) {s s' : Server Plain} (hs : s.sessions passerAddr = none)
    (hs' : s' = run (serve plainServer) s (passing n s.tasks.length)) :
    s'.sessions = s.sessions ∧ s.heap <+: s'.heap ∧
      s'.nextPeerId = s.nextPeerId + UInt32.ofNat n ∧
      s'.tasks = s.tasks ++ List.replicate (2 * n) none := by
  induction n generalizing s with
  | zero => simp [hs', passing]
  | succ n ih =>
    rw [passing, run_append] at hs'
    obtain ⟨d, hd⟩ : ∃ d, d = run (serve plainServer) s
      (connecting (plainEnv 1) passerAddr (.tcp 9) s.tasks.length ++
        leaving passerAddr (s.tasks.length + 1)) := ⟨_, rfl⟩
    -- the passer takes one id, and leaves the tables as they were
    obtain ⟨hsess, hheap, hnext, htasks⟩ := run_comeAndGo hs hd
    have hlen : d.tasks.length = s.tasks.length + 2 := by simp [htasks]
    rw [← hd, ← hlen] at hs'
    obtain ⟨hsess', hheap', hnext', htasks'⟩ := ih (by rw [hsess, hs]) hs'
    refine ⟨hsess'.trans hsess, hheap.trans hheap', ?_, ?_⟩
    · rw [hnext', hnext, UInt32.ofNat_add, UInt32.add_assoc]
      exact congrArg _ (UInt32.add_comm _ _)
    · rw [htasks', htasks, List.append_assoc, List.replicate_append_replicate]
      exact congrArg (fun k => s.tasks ++ List.replicate k none) (by omega)

lemma run_comeRound (n : ℕ) (hn : (2 + UInt32.ofNat n) &&& 0x00FFFFFF = 1) {s : Server Plain}
    (hs : s = run (serve plainServer) (Server.new plainPools)
      (connecting (plainEnv 1) plainAddr (.udp plainAddr) 0 ++ passing n 1 ++
        connecting (plainEnv 1) otherAddr (.udp otherAddr) (1 + 2 * n))) :
    ∃ r o r' o', s.sessions plainAddr = some r ∧ s.heap[r]? = some o ∧
      s.sessions otherAddr = some r' ∧ s.heap[r']? = some o' ∧ r ≠ r' ∧
      o.sess.peerId = o'.sess.peerId ∧ s.dataRoutes o.sess.peerId = some r' ∧ s.Idle := by
  obtain ⟨a, ha⟩ : ∃ a, a = run (serve plainServer) (Server.new plainPools)
    (connecting (plainEnv 1) plainAddr (.udp plainAddr) 0) := ⟨_, rfl⟩
  obtain ⟨b, hb⟩ : ∃ b, b = run (serve plainServer) a (passing n 1) := ⟨_, rfl⟩
  rw [run_append, run_append, ← ha, ← hb] at hs
  have hconn := run_connecting (s := Server.new plainPools) plainAddr (.udp plainAddr) rfl
  have hlen0 : (Server.new plainPools : Server Plain).tasks.length = 0 := rfl
  rw [hlen0, ← ha] at hconn
  have hlen : a.tasks.length = 1 := by rw [hconn]; rfl
  rw [← hlen] at hb
  obtain ⟨hsess, hheap, hnext, htasks⟩ := run_passing n (by rw [hconn]; decide) hb
  have hblen : b.tasks.length = 1 + 2 * n := by simp [htasks, hlen]
  -- after n further ids the counter is back at the first one
  have hpid : b.newPeerId = 1 := by
    rw [Server.newPeerId, hnext, hconn]
    exact hn
  rw [← hblen, run_connecting otherAddr (.udp otherAddr) (by rw [hsess, hconn]; decide),
    hpid] at hs
  obtain ⟨rest, hrest⟩ := hheap
  have hfirst : b.heap = greeted plainAddr (.udp plainAddr) 1 :: rest := by
    rw [← hrest, hconn]
    rfl
  refine ⟨0, greeted plainAddr (.udp plainAddr) 1, b.heap.length,
    greeted otherAddr (.udp otherAddr) 1, ?_, ?_, ?_, ?_, ?_, rfl, ?_, ?_⟩
  · have hne : plainAddr ≠ otherAddr := by decide
    have hold : a.sessions plainAddr = some 0 := by rw [hconn]; decide
    simp [hs, hne, hsess, hold]
  · simp [hs, hfirst]
  · simp [hs]
  · simp [hs]
  · simp [hfirst]
  · have hpid' : (greeted plainAddr (.udp plainAddr) 1).sess.peerId = 1 := rfl
    simp [hs, hpid']
  · have htask : a.tasks = [none] := by rw [hconn]; rfl
    intro t ht
    simp [hs, htasks, htask] at ht
    tauto

/-- After 2 ^ 24 sessions the counter is back at the first peer id. The client that gets it
takes over the data packets of the one that has it. -/
theorem peerIds_comeRound :
    let s := run (serve plainServer) (Server.new plainPools)
      (connecting (plainEnv 1) plainAddr (.udp plainAddr) 0 ++ passing (2 ^ 24 - 1) 1 ++
        connecting (plainEnv 1) otherAddr (.udp otherAddr) (1 + 2 * (2 ^ 24 - 1)))
    ∃ r o r' o', s.sessions plainAddr = some r ∧ s.heap[r]? = some o ∧
      s.sessions otherAddr = some r' ∧ s.heap[r']? = some o' ∧ r ≠ r' ∧
      o.sess.peerId = o'.sess.peerId ∧ s.dataRoutes o.sess.peerId = some r' ∧ s.Idle :=
  run_comeRound (2 ^ 24 - 1) (by decide) rfl

end Javs
