import Javs.Server

/-!
Which sessions the entries of the maps belong to.

Routes, peers and data routes are entries that are made for the session at some address.
As long as one task at a time works on an address, the address owns an entry while its
session is present and has the address or the peer id in question, and then on until the task
that evicts the session has removed the entry too. What a step does to the entries and to
their owners is said once here (`Shift`).
-/

namespace Javs

open Lib

variable {Conn : Type}

/-! ### Tenants and entries -/

structure Tenant where
  home : SocketAddr
  ip : Option IpAddr
  ip6 : Option Ipv6Addr
  peerId : UInt32

def Object.tenant (o : Object Conn) : Tenant :=
  ⟨o.home, o.sess.assignedIp, o.sess.assignedIpV6, o.sess.peerId⟩

def Server.tenant (s : Server Conn) (r : Ref) : Option Tenant := (s.heap[r]?).map Object.tenant

inductive Entry
  | route (ip : Ipv4Addr)
  | routeV6 (ip : Ipv6Addr)
  | peer (pid : UInt32)
  | data (pid : UInt32)
  deriving DecidableEq

namespace Entry

def removal : Entry → MapOp
  | .route ip => .removeRoute ip
  | .routeV6 ip => .removeRouteV6 ip
  | .peer pid => .removePeer pid
  | .data pid => .removeData pid

def Of (d : Tenant) : Entry → Prop
  | .route ip => d.ip = some (.v4 ip)
  | .routeV6 ip => d.ip6 = some ip
  | .peer pid | .data pid => d.peerId = pid

def isAddress : Entry → Bool
  | .route _ | .routeV6 _ => true
  | _ => false

end Entry

/-- The address an entry points to. A data route points to a session, hence to the address
that session was created for. -/
def Server.holder (s : Server Conn) : Entry → Option SocketAddr
  | .route ip => s.tab.routes ip
  | .routeV6 ip => s.tab.routesV6 ip
  | .peer pid => s.peers pid
  | .data pid => (s.dataRoutes pid).bind fun r => (s.tenant r).map Tenant.home

def clearOps (d : Tenant) : List MapOp :=
  .removeSession :: (removeRoutes d.ip d.ip6 ++ [.removePeer d.peerId, .removeData d.peerId])

lemma removeSession_removeOps (o : Object Conn) :
    .removeSession :: removeOps o.sess = clearOps o.tenant := rfl

lemma mem_clearOps {d : Tenant} {op : MapOp} :
    op ∈ clearOps d ↔ op = .removeSession ∨ ∃ e : Entry, op = e.removal ∧ e.Of d := by
  constructor
  · intro h
    rcases List.mem_cons.mp h with h | h
    · exact .inl h
    right
    rcases List.mem_append.mp h with h | h
    · rcases mem_removeRoutes h with ⟨ip, hip, rfl⟩ | ⟨ip, hip, rfl⟩
      · exact ⟨.route ip, rfl, hip⟩
      · exact ⟨.routeV6 ip, rfl, hip⟩
    · simp only [List.mem_cons, List.not_mem_nil, or_false] at h
      rcases h with rfl | rfl
      · exact ⟨.peer d.peerId, rfl, rfl⟩
      · exact ⟨.data d.peerId, rfl, rfl⟩
  · rintro (rfl | ⟨e, rfl, he⟩)
    · exact List.mem_cons_self
    · refine List.mem_cons_of_mem _ ?_
      cases e <;> simp_all [Entry.Of, Entry.removal, removeRoutes]

lemma nodup_clearOps (d : Tenant) : (clearOps d).Nodup := by
  rcases d with ⟨home, _ | _ | _, _ | _, pid⟩ <;> simp [clearOps, removeRoutes]

lemma removal_injective : Function.Injective Entry.removal := by
  intro e e' h
  cases e <;> cases e' <;> cases h <;> rfl

lemma removal_ne_removeSession (e : Entry) : e.removal ≠ .removeSession := by
  cases e <;> nofun

lemma removal_mem_clearOps {d : Tenant} {e : Entry} : e.removal ∈ clearOps d ↔ e.Of d := by
  rw [mem_clearOps, or_iff_right (removal_ne_removeSession e)]
  exact ⟨fun ⟨e', hr, he⟩ => removal_injective hr ▸ he, fun he => ⟨e, rfl, he⟩⟩

lemma removal_mem_removeOps {o : Object Conn} {e : Entry} :
    e.removal ∈ removeOps o.sess ↔ e.Of o.tenant := by
  rw [← removal_mem_clearOps, ← removeSession_removeOps, List.mem_cons,
    or_iff_right (removal_ne_removeSession e)]

/-! ### Owners -/

/-- The session at `a` is present, and has the address or the peer id of the entry. -/
def Server.Present (s : Server Conn) (e : Entry) (a : SocketAddr) : Prop :=
  ∃ r d, s.sessions a = some r ∧ s.tenant r = some d ∧ e.Of d

/-- A task in this stage is going to remove the entry of a session which it has, or will
have, taken out of `sessions`. -/
def Stage.Clears (s : Server Conn) (e : Entry) : Stage → Prop
  | .teardown r => ∃ d, s.tenant r = some d ∧ e.Of d
  | .ops _ todo => e.removal ∈ todo
  | _ => False

def Server.Owned (s : Server Conn) (e : Entry) (a : SocketAddr) : Prop :=
  s.Present e a ∨
    ∃ (i : ℕ) (t : Task), s.tasks[i]? = some (some t) ∧ t.addr = a ∧ t.stage.Clears s e

/-- What holds of `sessions` at the address of a task, if no other task works on it. -/
def Stage.Fits (s : Server Conn) (a : SocketAddr) : Stage → Prop
  | .create .. | .teardown _ => s.sessions a = none
  | .locked r .. | .reap r => s.sessions a = some r
  | .ops r todo => ∃ d, s.tenant r = some d ∧
    ((todo <:+ insertOps d.peerId ∧ d.ip = none ∧ d.ip6 = none ∧
        s.sessions a = if .insertSession ∈ todo then none else some r) ∨
      (todo <:+ clearOps d ∧ s.sessions a = if .removeSession ∈ todo then some r else none))
  | _ => True

structure Orderly (s : Server Conn) : Prop where
  alone : ∀ (i j : ℕ) (t t' : Task), s.tasks[i]? = some (some t) → s.tasks[j]? = some (some t') →
    t.addr = t'.addr → i = j
  home : ∀ a r, s.sessions a = some r → ∃ d, s.tenant r = some d ∧ d.home = a
  hand : ∀ (i : ℕ) (t : Task) r, s.tasks[i]? = some (some t) → t.stage.ref? = some r →
    ∃ d, s.tenant r = some d ∧ d.home = t.addr
  fits : ∀ (i : ℕ) (t : Task), s.tasks[i]? = some (some t) → t.stage.Fits s t.addr
  worker : ∀ pid r, s.dataRoutes pid = some r → ∃ d, s.tenant r = some d

/-- Nothing changes outside of the address `a`. -/
structure Local (a : SocketAddr) (s s' : Server Conn) : Prop where
  sessions : ∀ b, b ≠ a → s'.sessions b = s.sessions b
  tenant : ∀ r d, s.tenant r = some d → d.home ≠ a → s'.tenant r = some d

/-- The fate of an entry in a step at the address `a`. -/
inductive Fate (s s' : Server Conn) (a : SocketAddr) (e : Entry) : Prop
  | kept (hh : s'.holder e = s.holder e) (ho : s.Owned e a → s'.Owned e a)
      (hb : e.isAddress = true → s'.Owned e a → s.Owned e a)
  | entered (hh : s'.holder e = some a) (ho : s'.Owned e a)
  | cleared (hh : s'.holder e = none) (ho : s.Owned e a) (hn : ¬ s'.Owned e a)

/-- What a step at the address `a` does to the entries and to their owners. -/
structure Shift (s s' : Server Conn) (a : SocketAddr) : Prop where
  others : ∀ b, b ≠ a → ∀ e, s'.Owned e b ↔ s.Owned e b
  fate : ∀ e, Fate s s' a e

/-- What working on a session does to its entries: an address that it did not have may be
noted, and entered. -/
structure Enters (a : SocketAddr) (h h' : Holding) : Prop where
  peerId : h'.peerId = h.peerId
  v4 : (h'.ip = h.ip ∧ h'.tab.routes = h.tab.routes) ∨
    (h.ip = none ∧ ∃ ip, h'.ip = some (.v4 ip) ∧
      h'.tab.routes = Function.update h.tab.routes ip (some a))
  v6 : (h'.ip6 = h.ip6 ∧ h'.tab.routesV6 = h.tab.routesV6) ∨
    (h.ip6 = none ∧ ∃ ip, h'.ip6 = some ip ∧
      h'.tab.routesV6 = Function.update h.tab.routesV6 ip (some a))

lemma Assigns.enters {a : SocketAddr} {h h' : Holding} (ha : Assigns a h h')
    (hask : h.state.early = true → h.ip = none ∧ h.ip6 = none) : Enters a h h' where
  peerId := ha.peerId
  v4 := ha.v4.imp_right fun ⟨he, ip, hip, hroutes, _⟩ => ⟨(hask he).1, ip, hip, hroutes⟩
  v6 := ha.v6.imp_right fun ⟨he, ip, hip, hroutes, _⟩ => ⟨(hask he).2, ip, hip, hroutes⟩

section Steps

variable {s s' : Server Conn} {i : ℕ} {t : Task} {x : Option Stage}

lemma Orderly.owned_iff (h : Orderly s) (hi : s.tasks[i]? = some (some t)) {e : Entry} :
    s.Owned e t.addr ↔ s.Present e t.addr ∨ t.stage.Clears s e := by
  constructor
  · rintro (hp | ⟨j, t', hj, ha, hc⟩)
    · exact .inl hp
    · cases h.alone j i t' t hj hi ha
      cases hi.symm.trans hj
      exact .inr hc
  · rintro (hp | hc)
    · exact .inl hp
    · exact .inr ⟨i, t, hi, rfl, hc⟩

lemma Orderly.owned_step_iff (h : Orderly s) (hi : s.tasks[i]? = some (some t))
    (htasks : s'.tasks = s.tasks.set i (x.map (⟨t.addr, ·⟩))) {e : Entry} :
    s'.Owned e t.addr ↔ s'.Present e t.addr ∨ ∃ st, x = some st ∧ st.Clears s' e := by
  constructor
  · rintro (hp | ⟨j, t', hj, ha, hc⟩)
    · exact .inl hp
    · rcases task_cases htasks hj with ⟨-, -, hst⟩ | ⟨hji, hj⟩
      · exact .inr ⟨_, hst, hc⟩
      · exact absurd (h.alone j i t' t hj hi ha) hji
  · rintro (hp | ⟨st, rfl, hc⟩)
    · exact .inl hp
    · exact .inr ⟨i, _, task_new hi htasks, rfl, hc⟩

lemma Local.tenant_iff {a b : SocketAddr} (hl : Local a s s') (hb : b ≠ a) {r : Ref}
    (hr : ∃ d, s.tenant r = some d ∧ d.home = b) {d : Tenant} :
    s'.tenant r = some d ↔ s.tenant r = some d := by
  obtain ⟨d', hd, hh⟩ := hr
  rw [hd, hl.tenant r d' hd (hh ▸ hb)]

lemma Orderly.present_other (h : Orderly s) {a b : SocketAddr} (hl : Local a s s') (hb : b ≠ a)
    (e : Entry) : s'.Present e b ↔ s.Present e b := by
  unfold Server.Present
  rw [hl.sessions b hb]
  refine exists_congr fun r => exists_congr fun d => and_congr_right fun hs => ?_
  rw [hl.tenant_iff hb (h.home b r hs)]

lemma Orderly.clears_other (h : Orderly s) {a : SocketAddr} (hl : Local a s s') {j : ℕ} {t' : Task}
    (hj : s.tasks[j]? = some (some t')) (hb : t'.addr ≠ a) (e : Entry) :
    t'.stage.Clears s' e ↔ t'.stage.Clears s e := by
  rcases hst : t'.stage with _ | _ | _ | _ | _ | _ | _ | r | _ <;> try exact Iff.rfl
  have hr := h.hand j t' r hj (by rw [hst]; rfl)
  exact exists_congr fun d => by rw [hl.tenant_iff hb hr]

lemma Orderly.fits_other (h : Orderly s) {a : SocketAddr} (hl : Local a s s') {j : ℕ} {t' : Task}
    (hj : s.tasks[j]? = some (some t')) (hb : t'.addr ≠ a) : t'.stage.Fits s' t'.addr := by
  have hfit := h.fits j t' hj
  have hhand := h.hand j t'
  rcases hst : t'.stage with _ | _ | _ | _ | _ | _ | _ | r | ⟨r, todo⟩ <;>
    rw [hst] at hfit hhand <;>
    simp only [Stage.Fits, hl.sessions _ hb] at hfit ⊢ <;> try exact hfit
  obtain ⟨d, hd, hcase⟩ := hfit
  exact ⟨d, (hl.tenant_iff hb (hhand r hj rfl)).mpr hd, hcase⟩

lemma Orderly.owned_other (h : Orderly s) (hi : s.tasks[i]? = some (some t))
    (htasks : s'.tasks = s.tasks.set i (x.map (⟨t.addr, ·⟩))) (hl : Local t.addr s s')
    {b : SocketAddr} (hb : b ≠ t.addr) (e : Entry) : s'.Owned e b ↔ s.Owned e b := by
  refine or_congr (h.present_other hl hb e) ⟨?_, ?_⟩
  · rintro ⟨j, t', hj, rfl, hc⟩
    rcases task_cases htasks hj with ⟨-, ha, -⟩ | ⟨-, hj⟩
    · exact absurd ha hb
    · exact ⟨j, t', hj, rfl, (h.clears_other hl hj hb e).mp hc⟩
  · rintro ⟨j, t', hj, rfl, hc⟩
    have hji : j ≠ i := by
      rintro rfl
      cases hi.symm.trans hj
      exact hb rfl
    exact ⟨j, t', (task_other htasks hji).trans hj, rfl, (h.clears_other hl hj hb e).mpr hc⟩

lemma Orderly.move (h : Orderly s) (hi : s.tasks[i]? = some (some t))
    (htasks : s'.tasks = s.tasks.set i (x.map (⟨t.addr, ·⟩))) (hl : Local t.addr s s')
    (hhome : ∀ r, s'.sessions t.addr = some r → ∃ d, s'.tenant r = some d ∧ d.home = t.addr)
    (hhand : ∀ st r, x = some st → st.ref? = some r →
      ∃ d, s'.tenant r = some d ∧ d.home = t.addr)
    (hfits : ∀ st, x = some st → st.Fits s' t.addr)
    (hworker : ∀ pid r, s'.dataRoutes pid = some r → ∃ d, s'.tenant r = some d) :
    Orderly s' := by
  -- no other task runs at this address
  have hne : ∀ {j : ℕ} {t' : Task}, j ≠ i → s.tasks[j]? = some (some t') → t'.addr ≠ t.addr :=
    fun hji hj ha => hji (h.alone _ _ _ _ hj hi ha)
  refine ⟨?alone, ?home, ?hand, ?fits, hworker⟩
  case alone =>
    intro j k u v hj hk huv
    rcases task_cases htasks hj with ⟨hji, hu, -⟩ | ⟨hji, hj⟩ <;>
      rcases task_cases htasks hk with ⟨hki, hv, -⟩ | ⟨hki, hk⟩
    · rw [hji, hki]
    · exact absurd (huv.symm.trans hu) (hne hki hk)
    · exact absurd (huv.trans hv) (hne hji hj)
    · exact h.alone j k u v hj hk huv
  case home =>
    intro b r hs
    by_cases hb : b = t.addr
    · subst hb
      exact hhome r hs
    · rw [hl.sessions b hb] at hs
      obtain ⟨d, hd, hh⟩ := h.home b r hs
      exact ⟨d, hl.tenant r d hd (hh ▸ hb), hh⟩
  case hand =>
    intro j u r hj hr
    rcases task_cases htasks hj with ⟨-, hu, hst⟩ | ⟨hji, hj⟩
    · rw [hu]
      exact hhand _ r hst hr
    · obtain ⟨d, hd, hh⟩ := h.hand j u r hj hr
      exact ⟨d, hl.tenant r d hd (hh ▸ hne hji hj), hh⟩
  case fits =>
    intro j u hj
    rcases task_cases htasks hj with ⟨-, hu, hst⟩ | ⟨hji, hj⟩
    · rw [hu]
      exact hfits _ hst
    · exact h.fits_other hl hj (hne hji hj)

lemma Orderly.kept (h : Orderly s) (hi : s.tasks[i]? = some (some t))
    (htasks : s'.tasks = s.tasks.set i (x.map (⟨t.addr, ·⟩))) {e : Entry}
    (hh : s'.holder e = s.holder e)
    (hiff : (s'.Present e t.addr ∨ ∃ st, x = some st ∧ st.Clears s' e) ↔
      (s.Present e t.addr ∨ t.stage.Clears s e)) : Fate s s' t.addr e := by
  have howned := ((h.owned_step_iff hi htasks).trans hiff).trans (h.owned_iff hi).symm
  exact .kept hh howned.mpr fun _ => howned.mp

lemma Orderly.quiet (h : Orderly s) (hi : s.tasks[i]? = some (some t)) (next : UInt32)
    (hs' : s' = { s with nextPeerId := next, tasks := s.tasks.set i (x.map (⟨t.addr, ·⟩)) })
    (hhand : ∀ st r, x = some st → st.ref? = some r → ∃ d, s.tenant r = some d ∧ d.home = t.addr)
    (hfits : ∀ st, x = some st → st.Fits s t.addr)
    (hiff : ∀ e, (s.Present e t.addr ∨ ∃ st, x = some st ∧ st.Clears s e) ↔
      (s.Present e t.addr ∨ t.stage.Clears s e)) :
    Orderly s' ∧ Shift s s' t.addr := by
  have hl : Local t.addr s s' := by
    subst hs'
    exact ⟨fun _ _ => rfl, fun _ _ hd _ => hd⟩
  have htasks : s'.tasks = s.tasks.set i (x.map (⟨t.addr, ·⟩)) := by rw [hs']
  refine ⟨?_, fun b hb e => h.owned_other hi htasks hl hb e, fun e => ?_⟩
  · refine h.move hi htasks hl ?_ ?_ ?_ ?_
    · subst hs'
      exact h.home t.addr
    · subst hs'
      exact hhand
    · subst hs'
      exact hfits
    · subst hs'
      exact h.worker
  · refine h.kept hi htasks ?_ ?_
    · subst hs'
      cases e <;> rfl
    · subst hs'
      exact hiff e

lemma present_iff {a : SocketAddr} {r : Ref} {d : Tenant} (hs : s.sessions a = some r)
    (hd : s.tenant r = some d) {e : Entry} : s.Present e a ↔ e.Of d := by
  constructor
  · rintro ⟨r', d', hs', hd', he⟩
    cases hs.symm.trans hs'
    cases hd.symm.trans hd'
    exact he
  · exact fun he => ⟨r, d, hs, hd, he⟩

lemma not_present {a : SocketAddr} (hs : s.sessions a = none) {e : Entry} : ¬ s.Present e a := by
  rintro ⟨r, d, hs', -⟩
  cases hs.symm.trans hs'

lemma removal_not_mem_insertOps (e : Entry) (pid : UInt32) : e.removal ∉ insertOps pid := by
  cases e <;> simp [Entry.removal, insertOps]

lemma tenant_append {o : Object Conn} (hh : s'.heap = s.heap ++ [o]) {r : Ref} {d : Tenant}
    (hd : s.tenant r = some d) : s'.tenant r = some d := by
  obtain ⟨o', ho, rfl⟩ := Option.map_eq_some_iff.mp hd
  rw [Server.tenant, hh, List.getElem?_append_left (List.getElem?_eq_some_iff.mp ho).1, ho]
  rfl

lemma tenant_new {o : Object Conn} (hh : s'.heap = s.heap ++ [o]) :
    s'.tenant s.heap.length = some o.tenant := by
  simp [Server.tenant, hh]

lemma Orderly.holder_data (h : Orderly s) (hdata : s'.dataRoutes = s.dataRoutes)
    (hhome : ∀ r d, s.tenant r = some d → ∃ d', s'.tenant r = some d' ∧ d'.home = d.home)
    (pid : UInt32) : s'.holder (.data pid) = s.holder (.data pid) := by
  simp only [Server.holder, hdata]
  rcases hp : s.dataRoutes pid with _ | r
  · rfl
  · obtain ⟨d, hd⟩ := h.worker pid r hp
    obtain ⟨d', hd', hh⟩ := hhome r d hd
    simp [hd, hd', hh]

lemma Orderly.created (h : Orderly s) (hi : s.tasks[i]? = some (some t))
    {ctrl : ControlPacket} {replayPid : Option UInt32} {transport : Transport}
    (ht : t.stage = .create ctrl replayPid transport) {next : UInt32} {o : Object Conn}
    (hh : o.home = t.addr)
    (ho : o.holding s.tab = ⟨.handshaking, none, none, s.newPeerId, s.tab⟩)
    (hs' : s' = { s with
      nextPeerId := next
      heap := s.heap ++ [o]
      tasks := s.tasks.set i (some ⟨t.addr, .ops s.heap.length (insertOps s.newPeerId)⟩) }) :
    Orderly s' ∧ Shift s s' t.addr := by
  -- a task is about to create a session only where none is filed
  have hnone : s.sessions t.addr = none := by
    have := h.fits i t hi
    rwa [ht] at this
  have hheap : s'.heap = s.heap ++ [o] := by rw [hs']
  have hsess : s'.sessions = s.sessions := by rw [hs']
  have htasks : s'.tasks = s.tasks.set i
      ((some (.ops s.heap.length (insertOps s.newPeerId))).map (⟨t.addr, ·⟩)) := by rw [hs']; rfl
  have hl : Local t.addr s s' :=
    ⟨fun b _ => by rw [hsess], fun r d hd _ => tenant_append hheap hd⟩
  have hold : o.tenant = ⟨t.addr, none, none, s.newPeerId⟩ := by
    have hip : o.sess.assignedIp = none := congrArg Holding.ip ho
    have hip6 : o.sess.assignedIpV6 = none := congrArg Holding.ip6 ho
    have hpid : o.sess.peerId = s.newPeerId := congrArg Holding.peerId ho
    rw [Object.tenant, hh, hip, hip6, hpid]
  have hnew := tenant_new hheap
  rw [hold] at hnew
  refine ⟨h.move hi htasks hl ?_ ?_ ?_ ?_, fun b hb e => h.owned_other hi htasks hl hb e,
    fun e => h.kept hi htasks ?_ ?_⟩
  · intro r hr
    rw [hsess, hnone] at hr
    cases hr
  · rintro st r hst hr
    cases hst
    cases hr
    exact ⟨_, hnew, rfl⟩
  · rintro st hst
    cases hst
    refine ⟨_, hnew, .inl ⟨List.suffix_rfl, rfl, rfl, ?_⟩⟩
    rw [hsess, hnone]
    simp [insertOps]
  · intro pid r hr
    rw [hs'] at hr
    obtain ⟨d, hd⟩ := h.worker pid r hr
    exact ⟨d, tenant_append hheap hd⟩
  · cases e with
    | data pid =>
      exact h.holder_data (by rw [hs']) (fun r d hd => ⟨d, tenant_append hheap hd, rfl⟩) pid
    | _ => rw [hs']; rfl
  · rw [ht]
    have hn' : ¬ s'.Present e t.addr := not_present (by rw [hsess, hnone])
    simp [hn', not_present hnone, Stage.Clears, removal_not_mem_insertOps]

lemma tenant_set {ref : Ref} {o o' : Object Conn} (hh : s'.heap = s.heap.set ref o')
    (ho : s.heap[ref]? = some o) (r : Ref) :
    s'.tenant r = if r = ref then some o'.tenant else s.tenant r := by
  have hlt := (List.getElem?_eq_some_iff.mp ho).1
  rw [Server.tenant, hh]
  split
  · rename_i hr
    rw [hr, List.getElem?_set_self hlt]
    rfl
  · rename_i hr
    rw [List.getElem?_set_ne (Ne.symm hr)]
    rfl

lemma fate_of_enters {a : SocketAddr} {o o' : Object Conn}
    (hent : Enters a (o.holding s.tab) (o'.holding s'.tab)) (hpeers : s'.peers = s.peers)
    (hdata : ∀ pid, s'.holder (.data pid) = s.holder (.data pid))
    (howned : ∀ e, s.Owned e a ↔ e.Of o.tenant) (howned' : ∀ e, s'.Owned e a ↔ e.Of o'.tenant)
    (e : Entry) : Fate s s' a e := by
  have hkept : s'.holder e = s.holder e → (e.Of o'.tenant ↔ e.Of o.tenant) → Fate s s' a e :=
    fun hh hiff => .kept hh (fun h => (howned' e).mpr (hiff.mpr ((howned e).mp h)))
      fun _ h => (howned e).mpr (hiff.mp ((howned' e).mp h))
  have hpid : o'.sess.peerId = o.sess.peerId := hent.peerId
  cases e with
  | peer pid =>
    refine hkept (congrFun hpeers pid) ?_
    simp only [Entry.Of, Object.tenant, hpid]
  | data pid =>
    refine hkept (hdata pid) ?_
    simp only [Entry.Of, Object.tenant, hpid]
  | route ip =>
    rcases hent.v4 with ⟨hip, hroutes⟩ | ⟨hnone, ip', hip', hroutes⟩
    · exact hkept (congrFun hroutes ip) (Eq.congr_left hip)
    · by_cases hne : ip = ip'
      · subst hne
        exact .entered ((congrFun hroutes ip).trans (Function.update_self ..))
          ((howned' _).mpr hip')
      · refine hkept ((congrFun hroutes ip).trans (Function.update_of_ne hne ..)) ?_
        have hold : ¬ Entry.Of o.tenant (.route ip) := fun hof => by
          cases hof.symm.trans hnone
        have hnew : ¬ Entry.Of o'.tenant (.route ip) := fun hof => by
          cases Option.some_inj.mp (hip'.symm.trans hof)
          exact hne rfl
        exact iff_of_false hnew hold
  | routeV6 ip =>
    rcases hent.v6 with ⟨hip, hroutes⟩ | ⟨hnone, ip', hip', hroutes⟩
    · exact hkept (congrFun hroutes ip) (Eq.congr_left hip)
    · by_cases hne : ip = ip'
      · subst hne
        exact .entered ((congrFun hroutes ip).trans (Function.update_self ..))
          ((howned' _).mpr hip')
      · refine hkept ((congrFun hroutes ip).trans (Function.update_of_ne hne ..)) ?_
        have hold : ¬ Entry.Of o.tenant (.routeV6 ip) := fun hof => by
          cases hof.symm.trans hnone
        have hnew : ¬ Entry.Of o'.tenant (.routeV6 ip) := fun hof =>
          hne (Option.some_inj.mp (hof.symm.trans hip'))
        exact iff_of_false hnew hold

lemma Orderly.handled (h : Orderly s) (hi : s.tasks[i]? = some (some t)) {ref : Ref}
    {ctrl : ControlPacket} {replayPid : Option UInt32} (ht : t.stage = .locked ref ctrl replayPid)
    {o o' : Object Conn} {tab : Tables} (ho : s.heap[ref]? = some o) (hh : o'.home = o.home)
    (hx : ∀ st, x = some st → st = t.stage)
    (hs' : s' = { s with heap := s.heap.set ref o', tab,
                         tasks := s.tasks.set i (x.map (⟨t.addr, ·⟩)) }) :
    Orderly s' ∧ (Enters t.addr (o.holding s.tab) (o'.holding tab) → Shift s s' t.addr) := by
  have hsome : s.sessions t.addr = some ref := by
    have := h.fits i t hi
    rwa [ht] at this
  have hd : s.tenant ref = some o.tenant := by rw [Server.tenant, ho]; rfl
  have hhome : o.home = t.addr := by
    obtain ⟨d, hd', hh'⟩ := h.home _ _ hsome
    cases hd.symm.trans hd'
    exact hh'
  have hset : ∀ r, s'.tenant r = if r = ref then some o'.tenant else s.tenant r :=
    tenant_set (by rw [hs']) ho
  have hself : s'.tenant ref = some o'.tenant := (hset ref).trans (if_pos rfl)
  have hkeep : ∀ r d, s.tenant r = some d → ∃ d', s'.tenant r = some d' ∧ d'.home = d.home := by
    intro r d hd'
    by_cases hr : r = ref
    · subst hr
      cases hd.symm.trans hd'
      exact ⟨_, hself, hh⟩
    · exact ⟨d, by rw [hset, if_neg hr, hd'], rfl⟩
  have hsess : s'.sessions = s.sessions := by rw [hs']
  have hsome' : s'.sessions t.addr = some ref := by rw [hsess, hsome]
  have htasks : s'.tasks = s.tasks.set i (x.map (⟨t.addr, ·⟩)) := by rw [hs']
  have hl : Local t.addr s s' := by
    refine ⟨fun b _ => by rw [hsess], fun r d hd' hne => ?_⟩
    have hr : r ≠ ref := by
      rintro rfl
      cases hd.symm.trans hd'
      exact hne hhome
    rw [hset, if_neg hr, hd']
  refine ⟨h.move hi htasks hl ?_ ?_ ?_ ?_,
    fun hent => ⟨fun b hb e => h.owned_other hi htasks hl hb e,
    ?_⟩⟩
  · intro r hr
    cases hsome'.symm.trans hr
    exact ⟨_, hself, hh.trans hhome⟩
  · intro st r hst hr
    rw [hx st hst, ht] at hr
    cases hr
    exact ⟨_, hself, hh.trans hhome⟩
  · intro st hst
    rw [hx st hst, ht]
    exact hsome'
  · intro pid r hr
    rw [hs'] at hr
    obtain ⟨d, hd'⟩ := h.worker pid r hr
    obtain ⟨d', hd'', -⟩ := hkeep r d hd'
    exact ⟨d', hd''⟩
  · have hent' : Enters t.addr (o.holding s.tab) (o'.holding s'.tab) := by
      rw [hs']
      exact hent
    refine fate_of_enters hent' (by rw [hs'])
      (h.holder_data (by rw [hs']) hkeep) (fun e => ?_) fun e => ?_
    · rw [h.owned_iff hi, present_iff hsome hd, ht]
      exact or_iff_left id
    · rw [h.owned_step_iff hi htasks, present_iff hsome' hself]
      refine or_iff_left ?_
      rintro ⟨st, hst, hc⟩
      rw [hx st hst, ht] at hc
      exact hc

lemma clears_congr (hten : s'.tenant = s.tenant) (st : Stage) (e : Entry) :
    st.Clears s' e ↔ st.Clears s e := by
  cases st <;> simp only [Stage.Clears, hten]

lemma Orderly.out (h : Orderly s) (hi : s.tasks[i]? = some (some t)) {st : Stage}
    (hs' : s' = { s with
      sessions := Function.update s.sessions t.addr none
      tasks := s.tasks.set i (some ⟨t.addr, st⟩) })
    {r : Ref} {d : Tenant} (hsome : s.sessions t.addr = some r) (hd : s.tenant r = some d)
    (hr : st.ref? = some r) (hbefore : ∀ e, t.stage.Clears s e → e.Of d)
    (hafter : ∀ e, st.Clears s e ↔ e.Of d)
    (hfits : s'.sessions t.addr = none → s'.tenant = s.tenant → st.Fits s' t.addr) :
    Orderly s' ∧ Shift s s' t.addr := by
  have htasks : s'.tasks = s.tasks.set i ((some st).map (⟨t.addr, ·⟩)) := by rw [hs']; rfl
  have hnone : s'.sessions t.addr = none := by rw [hs']; exact Function.update_self ..
  have hten : s'.tenant = s.tenant := by rw [hs']; rfl
  have hl : Local t.addr s s' :=
    ⟨fun b hb => by rw [hs']; exact Function.update_of_ne hb .., fun r d hd _ => by rw [hten, hd]⟩
  have hhome : d.home = t.addr := by
    obtain ⟨d', hd', hh⟩ := h.home _ _ hsome
    cases hd.symm.trans hd'
    exact hh
  refine ⟨h.move hi htasks hl ?_ ?_ ?_ ?_, fun b hb e => h.owned_other hi htasks hl hb e,
    fun e => h.kept hi htasks ?_ ?_⟩
  · intro r' hr'
    rw [hnone] at hr'
    cases hr'
  · rintro st' r' hst hr'
    cases hst
    cases hr.symm.trans hr'
    exact ⟨d, by rw [hten, hd], hhome⟩
  · rintro st' hst
    cases hst
    exact hfits hnone hten
  · rw [hs']
    exact h.worker
  · rw [hs']
    cases e <;> rfl
  · rw [present_iff hsome hd, or_iff_left_of_imp (hbefore e), or_iff_right (not_present hnone),
      ← hafter e, ← clears_congr hten st e]
    simp

lemma insertOps_suffix {op : MapOp} {todo : List MapOp} {pid : UInt32}
    (h : op :: todo <:+ insertOps pid) :
    .insertSession ∉ todo ∧
      (op = .insertSession ∨ op = .insertPeer pid ∨ op = .insertData pid) := by
  simp only [insertOps, List.suffix_cons_iff, List.suffix_nil] at h
  rcases h with h | h | h | h
  · cases h
    simp
  · cases h
    simp
  · cases h
    simp
  · cases h

lemma Orderly.insert (h : Orderly s) (hi : s.tasks[i]? = some (some t)) {r : Ref} {op : MapOp}
    {todo : List MapOp} (ht : t.stage = .ops r (op :: todo)) {d : Tenant}
    (hd : s.tenant r = some d) (hsuffix : op :: todo <:+ insertOps d.peerId) (hip : d.ip = none)
    (hip6 : d.ip6 = none)
    (hsess : s.sessions t.addr = if .insertSession ∈ op :: todo then none else some r)
    (hs' : s' = { op.run t.addr r s with
      tasks := s.tasks.set i (some ⟨t.addr, .ops r todo⟩) }) :
    Orderly s' ∧ Shift s s' t.addr := by
  obtain ⟨hlast, hop⟩ := insertOps_suffix hsuffix
  have htasks : s'.tasks = s.tasks.set i ((some (.ops r todo)).map (⟨t.addr, ·⟩)) := by
    rw [hs']
    rfl
  have hhome : d.home = t.addr := by
    obtain ⟨d', hd', hh⟩ := h.hand i t r hi (by rw [ht]; rfl)
    cases hd.symm.trans hd'
    exact hh
  have hten : s'.tenant = s.tenant := by
    rw [hs']
    cases op <;> rfl
  have hd' : s'.tenant r = some d := by rw [hten, hd]
  have hsome : op ≠ .insertSession → s.sessions t.addr = some r := fun hne => by
    rw [hsess, if_neg (by simp [hlast, Ne.symm hne])]
  -- Whichever entry it is that is made, the session is in `sessions` from then on.
  have hsess' : s'.sessions = Function.update s.sessions t.addr (some r) := by
    rcases hop with rfl | rfl | rfl
    · rw [hs']
      rfl
    · rw [← hsome nofun, Function.update_eq_self, hs']
      rfl
    · rw [← hsome nofun, Function.update_eq_self, hs']
      rfl
  have hsome' : s'.sessions t.addr = some r := by rw [hsess', Function.update_self]
  have hl : Local t.addr s s' :=
    ⟨fun b hb => by rw [hsess', Function.update_of_ne hb], fun r d hd _ => by rw [hten, hd]⟩
  have hown : ∀ e, s.Owned e t.addr ↔ s.Present e t.addr := by
    intro e
    rw [h.owned_iff hi, ht]
    exact or_iff_left fun hc => removal_not_mem_insertOps e _ (hsuffix.subset hc)
  have hown' : ∀ e, s'.Owned e t.addr ↔ e.Of d := by
    intro e
    rw [h.owned_step_iff hi htasks, present_iff hsome' hd']
    refine or_iff_left ?_
    rintro ⟨st, hst, hc⟩
    cases hst
    exact removal_not_mem_insertOps e _ (hsuffix.subset (List.mem_cons_of_mem _ hc))
  have hkept : op ≠ .insertSession → ∀ e, s'.holder e = s.holder e → Fate s s' t.addr e := by
    intro hne e hh
    have hiff : s'.Owned e t.addr ↔ s.Owned e t.addr := by
      rw [hown', hown, present_iff (hsome hne) hd]
    exact .kept hh hiff.mpr fun _ => hiff.mp
  refine ⟨h.move hi htasks hl ?_ ?_ ?_ ?_, fun b hb e => h.owned_other hi htasks hl hb e,
    fun e => ?_⟩
  · intro r' hr
    cases hsome'.symm.trans hr
    exact ⟨d, hd', hhome⟩
  · rintro st r' hst hr
    cases hst
    cases hr
    exact ⟨d, hd', hhome⟩
  · rintro st hst
    cases hst
    refine ⟨d, hd', .inl ⟨(List.suffix_cons op todo).trans hsuffix, hip, hip6, ?_⟩⟩
    rw [hsome', if_neg hlast]
  · intro pid r' hr
    rw [hten]
    rcases hop with rfl | rfl | rfl
    · rw [hs'] at hr
      exact h.worker pid r' hr
    · rw [hs'] at hr
      exact h.worker pid r' hr
    · rw [hs'] at hr
      change Function.update s.dataRoutes d.peerId (some r) pid = some r' at hr
      rw [Function.update_apply] at hr
      split at hr
      · cases hr
        exact ⟨d, hd⟩
      · exact h.worker pid r' hr
  · rcases hop with rfl | rfl | rfl
    · have hnone : s.sessions t.addr = none := by rw [hsess, if_pos List.mem_cons_self]
      refine .kept ?_ (fun ho => absurd ((hown e).mp ho) (not_present hnone)) fun ha ho => ?_
      · rw [hs']
        cases e <;> rfl
      · have hof := (hown' e).mp ho
        cases e <;> simp [Entry.Of, Entry.isAddress, hip, hip6] at hof ha
    · by_cases he : e = .peer d.peerId
      · subst he
        refine .entered ?_ ((hown' (.peer d.peerId)).mpr rfl)
        rw [hs']
        exact Function.update_self ..
      · refine hkept nofun e ?_
        rw [hs']
        cases e with
        | peer pid => exact Function.update_of_ne (fun hp => he (congrArg _ hp)) ..
        | _ => rfl
    · have hdata : s'.dataRoutes = Function.update s.dataRoutes d.peerId (some r) := by
        rw [hs']
        rfl
      by_cases he : e = .data d.peerId
      · subst he
        refine .entered ?_ ((hown' (.data d.peerId)).mpr rfl)
        rw [Server.holder, hdata, Function.update_self, Option.bind_some, hd', Option.map_some,
          hhome]
      · refine hkept nofun e ?_
        cases e with
        | data pid =>
          have hne : pid ≠ d.peerId := fun hp => he (congrArg _ hp)
          simp only [Server.holder, hdata, Function.update_of_ne hne, hten]
        | _ => rw [hs']; rfl

lemma holder_removal (e₀ : Entry) (a : SocketAddr) (r : Ref) (s : Server Conn) (e : Entry) :
    (e₀.removal.run a r s).holder e = if e = e₀ then none else s.holder e := by
  cases e₀ <;> cases e <;>
    simp [Entry.removal, MapOp.run, Server.holder, Server.tenant, Function.update_apply]
  split <;> simp

lemma dataRoutes_removal {e₀ : Entry} {a : SocketAddr} {r r' : Ref} {pid : UInt32}
    (h : (e₀.removal.run a r s).dataRoutes pid = some r') : s.dataRoutes pid = some r' := by
  cases e₀ with
  | data p =>
    change Function.update s.dataRoutes p none pid = some r' at h
    rw [Function.update_apply] at h
    split at h
    · cases h
    · exact h
  | _ => exact h

lemma clearOps_suffix {op : MapOp} {todo : List MapOp} {d : Tenant}
    (h : op :: todo <:+ clearOps d) :
    (op = .removeSession ∧ op :: todo = clearOps d) ∨
      (.removeSession ∉ op :: todo ∧ ∃ e : Entry, op = e.removal ∧ e.removal ∉ todo) := by
  have hnodup := (nodup_clearOps d).sublist h.sublist
  rcases List.suffix_cons_iff.mp h with heq | hrest
  · exact .inl ⟨(List.cons.inj heq).1, heq⟩
  · have hnot : .removeSession ∉ op :: todo := fun hm =>
      (List.nodup_cons.mp (nodup_clearOps d)).1 (hrest.subset hm)
    refine .inr ⟨hnot, ?_⟩
    rcases mem_clearOps.mp (h.subset List.mem_cons_self) with rfl | ⟨e, rfl, -⟩
    · exact absurd List.mem_cons_self hnot
    · exact ⟨e, rfl, (List.nodup_cons.mp hnodup).1⟩

lemma Orderly.clear (h : Orderly s) (hi : s.tasks[i]? = some (some t)) {r : Ref} {e₀ : Entry}
    {todo : List MapOp} (ht : t.stage = .ops r (e₀.removal :: todo)) {d : Tenant}
    (hd : s.tenant r = some d) (hsuffix : todo <:+ clearOps d) (hlast : .removeSession ∉ todo)
    (honce : e₀.removal ∉ todo) (hnone : s.sessions t.addr = none)
    (hs' : s' = { e₀.removal.run t.addr r s with
      tasks := s.tasks.set i (some ⟨t.addr, .ops r todo⟩) }) :
    Orderly s' ∧ Shift s s' t.addr := by
  have htasks : s'.tasks = s.tasks.set i ((some (.ops r todo)).map (⟨t.addr, ·⟩)) := by
    rw [hs']
    rfl
  have hten : s'.tenant = s.tenant := by
    rw [hs']
    cases e₀ <;> rfl
  have hsess : s'.sessions = s.sessions := by
    rw [hs']
    cases e₀ <;> rfl
  have hnone' : s'.sessions t.addr = none := by rw [hsess, hnone]
  have hholder : ∀ e, s'.holder e = if e = e₀ then none else s.holder e := fun e => by
    rw [hs', ← holder_removal e₀ t.addr r s e]
    cases e <;> rfl
  have hl : Local t.addr s s' := ⟨fun b _ => by rw [hsess], fun r d hd _ => by rw [hten, hd]⟩
  obtain ⟨d', hd', hhome⟩ := h.hand i t r hi (by rw [ht]; rfl)
  have hown : ∀ e, s.Owned e t.addr ↔ e.removal ∈ e₀.removal :: todo := fun e => by
    rw [h.owned_iff hi, ht]
    exact or_iff_right (not_present hnone)
  have hown' : ∀ e, s'.Owned e t.addr ↔ e.removal ∈ todo := fun e => by
    rw [h.owned_step_iff hi htasks, or_iff_right (not_present hnone')]
    simp [Stage.Clears]
  refine ⟨h.move hi htasks hl ?_ ?_ ?_ ?_, fun b hb e => h.owned_other hi htasks hl hb e,
    fun e => ?_⟩
  · intro r' hr'
    rw [hnone'] at hr'
    cases hr'
  · rintro st r' hst hr'
    cases hst
    cases hr'
    exact ⟨d', by rw [hten, hd'], hhome⟩
  · rintro st hst
    cases hst
    exact ⟨d, by rw [hten, hd], .inr ⟨hsuffix, by rw [hnone', if_neg hlast]⟩⟩
  · intro pid r' hr
    rw [hs'] at hr
    rw [hten]
    exact h.worker pid r' (dataRoutes_removal hr)
  · by_cases he : e = e₀
    · subst he
      refine .cleared ((hholder e).trans (if_pos rfl)) ((hown e).mpr List.mem_cons_self) ?_
      rw [hown']
      exact honce
    · have hiff : s'.Owned e t.addr ↔ s.Owned e t.addr := by
        rw [hown, hown', List.mem_cons, or_iff_right fun hr => he (removal_injective hr)]
      exact .kept ((hholder e).trans (if_neg he)) hiff.mpr fun _ => hiff.mp

lemma Orderly.op (h : Orderly s) (hi : s.tasks[i]? = some (some t)) {r : Ref} {op : MapOp}
    {todo : List MapOp} (ht : t.stage = .ops r (op :: todo))
    (hs' : s' = { op.run t.addr r s with
      tasks := s.tasks.set i (some ⟨t.addr, .ops r todo⟩) }) :
    Orderly s' ∧ Shift s s' t.addr := by
  have hfits := h.fits i t hi
  rw [ht] at hfits
  obtain ⟨d, hd, ⟨hsuffix, hip, hip6, hsess⟩ | ⟨hsuffix, hsess⟩⟩ := hfits
  · exact h.insert hi ht hd hsuffix hip hip6 hsess hs'
  rcases clearOps_suffix hsuffix with ⟨rfl, heq⟩ | ⟨hnot, e, rfl, honce⟩
  · have hmem : ∀ e : Entry, e.removal ∈ MapOp.removeSession :: todo ↔ e.Of d := fun e => by
      rw [heq, removal_mem_clearOps]
    have hlast : .removeSession ∉ todo :=
      (List.nodup_cons.mp (heq ▸ nodup_clearOps d)).1
    refine h.out hi hs' (by rw [hsess, if_pos List.mem_cons_self]) hd rfl (fun e hc => ?_)
      (fun e => ?_) fun hnone hten => ?_
    · rw [ht] at hc
      exact (hmem e).mp hc
    · rw [← hmem e, List.mem_cons, or_iff_right (removal_ne_removeSession e)]
      rfl
    · exact ⟨d, by rw [hten, hd], .inr ⟨(List.suffix_cons _ todo).trans hsuffix,
        by rw [hnone, if_neg hlast]⟩⟩
  · rw [if_neg hnot] at hsess
    exact h.clear hi ht hd ((List.suffix_cons _ todo).trans hsuffix)
      (fun hm => hnot (List.mem_cons_of_mem _ hm)) honce hsess hs'

lemma Orderly.finish (h : Orderly s) (hi : s.tasks[i]? = some (some t)) (next : UInt32)
    (hs' : s' = { s with nextPeerId := next, tasks := s.tasks.set i none })
    (hc : ∀ e, ¬ t.stage.Clears s e) : Orderly s' ∧ Shift s s' t.addr := by
  refine h.quiet (x := none) hi next hs' ?_ ?_ fun e => or_congr_right (iff_of_false ?_ (hc e))
  · rintro st r ⟨⟩
  · rintro st ⟨⟩
  · rintro ⟨st, ⟨⟩, -⟩

lemma Orderly.pass (h : Orderly s) (hi : s.tasks[i]? = some (some t)) {st : Stage}
    (hs' : s' = { s with tasks := s.tasks.set i (some ⟨t.addr, st⟩) })
    (hc : ∀ e, ¬ t.stage.Clears s e) (hc' : ∀ e, ¬ st.Clears s e)
    (hr : ∀ r, st.ref? = some r → s.sessions t.addr = some r) (hfits : st.Fits s t.addr) :
    Orderly s' ∧ Shift s s' t.addr := by
  refine h.quiet (x := some st) hi s.nextPeerId hs' ?_ ?_
    fun e => or_congr_right (iff_of_false ?_ (hc e))
  · rintro st' r ⟨⟩ hst
    exact h.home _ _ (hr r hst)
  · rintro st' ⟨⟩
    exact hfits
  · rintro ⟨st', ⟨⟩, hcl⟩
    exact hc' e hcl

lemma not_clears_of_ref {st : Stage} (hr : st.ref? = none) (e : Entry) : ¬ st.Clears s e := by
  cases st <;> first | exact id | cases hr

lemma Orderly.actsUnlocked (h : Orderly s) (hi : s.tasks[i]? = some (some t)) {s₁ : Server Conn}
    (ha : Acts s t s₁ x)
    (hl : ∀ ref ctrl replayPid o, t.stage = .locked ref ctrl replayPid → s.heap[ref]? ≠ some o)
    (hs' : s' = { s₁ with tasks := s.tasks.set i (x.map (⟨t.addr, ·⟩)) }) :
    Orderly s' ∧ Shift s s' t.addr := by
  have hfits := h.fits i t hi
  cases ha with
  | unknown ht hn =>
    exact h.pass hi hs' (by rw [ht]; exact fun _ => id) (fun _ => id) nofun hn
  | known ht =>
    exact h.pass hi hs' (by rw [ht]; exact fun _ => id) (fun _ => id) nofun trivial
  | notCreated ht next => exact h.finish hi next hs' (by rw [ht]; exact fun _ => id)
  | created ht next o hh ho => exact h.created hi ht hh ho hs'
  | missing ht hn => exact h.finish hi s.nextPeerId hs' (not_clears_of_ref ht)
  | found ht ref hs =>
    refine h.pass hi hs' (by rw [ht]; exact fun _ => id) (fun _ => id) (fun r hr => ?_) hs
    cases hr
    exact hs
  | visited ht ref hs =>
    refine h.pass hi hs' (by rw [ht]; exact fun _ => id) (fun _ => id) (fun r hr => ?_) hs
    cases hr
    exact hs
  | handled ht o o' tab ho => exact absurd ho (hl _ _ _ _ ht)
  | spared ht => exact h.finish hi s.nextPeerId hs' (by rw [ht]; exact fun _ => id)
  -- the reaper still finds its session filed: the entry goes first in its plan
  | @reaped ref ht o ho =>
    rw [ht] at hfits
    have hd : s.tenant ref = some o.tenant := by rw [Server.tenant, ho]; rfl
    refine h.quiet hi s.nextPeerId hs' ?_ ?_ fun e => ?_
    · rintro st r ⟨⟩ ⟨⟩
      exact h.home _ _ hfits
    · rintro st ⟨⟩
      refine ⟨o.tenant, hd, .inr ⟨List.suffix_rfl, ?_⟩⟩
      rw [if_pos List.mem_cons_self]
      exact hfits
    · rw [present_iff hfits hd, ht]
      simp [Stage.Clears, removal_ne_removeSession, removal_mem_removeOps]
  | closed ht ref hs =>
    obtain ⟨d, hd, -⟩ := h.home _ _ hs
    refine h.out hi hs' hs hd rfl ?_ ?_ fun hnone _ => hnone
    · rw [ht]
      exact fun _ => False.elim
    · intro e
      simp [Stage.Clears, hd]
  | @torn ref ht o ho =>
    rw [ht] at hfits
    have hd : s.tenant ref = some o.tenant := by rw [Server.tenant, ho]; rfl
    refine h.quiet hi s.nextPeerId hs' ?_ ?_ fun e => ?_
    · rintro st r ⟨⟩ ⟨⟩
      exact h.hand i t ref hi (by rw [ht]; rfl)
    · rintro st ⟨⟩
      have hnot : .removeSession ∉ removeOps o.sess := fun h => (mem_removeOps h).2.2 rfl
      refine ⟨o.tenant, hd, .inr ⟨List.suffix_cons _ _, ?_⟩⟩
      rw [if_neg hnot]
      exact hfits
    · refine or_congr_right ?_
      simp [ht, Stage.Clears, removal_mem_removeOps, hd]
  | done ht =>
    refine h.finish hi s.nextPeerId hs' fun e => ?_
    rw [ht]
    exact List.not_mem_nil
  | op ht => exact h.op hi ht hs'
  | lost ht hn =>
    obtain ⟨d, hd, -⟩ := h.hand i t _ hi ht
    rw [Server.tenant, hn] at hd
    cases hd

/-- **A step of a task.** Order is kept, and if the session in hand is not given addresses a
second time, every entry has one of its fates. -/
theorem Orderly.acts (h : Orderly s) (hi : s.tasks[i]? = some (some t)) {s₁ : Server Conn}
    (ha : Acts s t s₁ x)
    (hs' : s' = { s₁ with tasks := s.tasks.set i (x.map (⟨t.addr, ·⟩)) }) :
    Orderly s' ∧ ((∀ r ctrl replayPid o, t.stage = .locked r ctrl replayPid →
      s.heap[r]? = some o → o.sess.state.early = true →
      o.sess.assignedIp = none ∧ o.sess.assignedIpV6 = none) → Shift s s' t.addr) := by
  by_cases hl : ∀ ref ctrl replayPid o, t.stage = .locked ref ctrl replayPid →
      s.heap[ref]? ≠ some o
  · exact (h.actsUnlocked hi ha hl hs').imp_right fun hshift _ => hshift
  push Not at hl
  obtain ⟨ref, ctrl, replayPid, o, ht, ho⟩ := hl
  -- a task with a session to lock does nothing but work on it
  cases ha with
  | handled ht' o₁ o' tab ho₁ hh hassign =>
    refine (h.handled (x := none) hi ht' ho₁ hh (fun _ hst => by cases hst) hs').imp_right
      fun hshift hask => ?_
    exact hshift (hassign.enters (hask _ _ _ o₁ ht' ho₁))
  | lost ht' hn =>
    rw [ht] at ht'
    cases ht'
    rw [ho] at hn
    cases hn
  | missing ht' => rw [ht] at ht'; cases ht'
  | unknown ht' | known ht' | notCreated ht' | created ht' | found ht' | visited ht' | spared ht'
  | reaped ht' | closed ht' | torn ht' | done ht' | op ht' =>
    cases ht.symm.trans ht'

end Steps

end Javs
