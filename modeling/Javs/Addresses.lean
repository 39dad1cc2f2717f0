import Javs.Errands
import Javs.Eviction

/-!
Tunnel addresses.

A static address is checked against the routes before it is given out; the next address of the
pool is not. In either case it is entered later, in a step of its own. As long as an address is
free and no other session is about to enter it whenever it is chosen, an address is routed to the
one session that has it.
-/

namespace Javs

open Lib Lib.Proc Relation M

variable {Conn : Type}

/-! ### Routes and owners -/

/-- Who owns the entry of a tunnel address is routed under it. -/
def Routed (s : Server Conn) : Prop :=
  ∀ e a, e.isAddress = true → s.Owned e a → s.holder e = some a

/-- No entry of a tunnel address is overwritten. -/
def Spares (s s' : Server Conn) : Prop :=
  ∀ e a b, e.isAddress = true → s.holder e = some a → s'.holder e = some b → a = b

section Steps

variable {s s' : Server Conn} {a : SocketAddr}

lemma Routed.shift (h : Routed s) (hsp : Spares s s') (hs : Shift s s' a) : Routed s' := by
  intro x b hx hown
  cases hs.fate x with
  | kept hh _ hb =>
    rw [hh]
    by_cases hba : b = a
    · subst hba
      exact h x b hx (hb hx hown)
    · exact h x b hx ((hs.others b hba x).mp hown)
  | entered hh =>
    by_cases hba : b = a
    · rw [hh, hba]
    -- who else owned the entry was routed under it, and has been overwritten
    exact absurd (hsp x b a hx (h x b hx ((hs.others b hba x).mp hown)) hh) hba
  | cleared hh ho hn =>
    by_cases hba : b = a
    · subst hba
      exact absurd hown hn
    · have hb := h x b hx ((hs.others b hba x).mp hown)
      cases hb.symm.trans (h x a hx ho)
      exact absurd rfl hba

lemma Orderly.of_owned (h : Orderly s) {x : Entry} (hown : s.Owned x a) {r : Ref}
    (hs : s.sessions a = some r) : ∃ o, s.heap[r]? = some o ∧ x.Of o.tenant := by
  have hof : ∃ d, s.tenant r = some d ∧ x.Of d := by
    rcases hown with ⟨r', d, hs', hd, hof⟩ | ⟨i, t, hi, rfl, hc⟩
    · cases hs.symm.trans hs'
      exact ⟨d, hd, hof⟩
    -- a task that has the entry to clear has taken, or will take, the session out itself
    have hfits := h.fits i t hi
    rcases hst : t.stage with _ | _ | _ | _ | _ | _ | _ | r' | ⟨r', todo⟩ <;>
      rw [hst] at hc hfits <;> try exact hc.elim
    · cases hs.symm.trans hfits
    · obtain ⟨d, hd, ⟨hsuffix, -⟩ | ⟨hsuffix, hsess⟩⟩ := hfits
      · exact absurd (hsuffix.subset hc) (removal_not_mem_insertOps x _)
      · rw [hs] at hsess
        split at hsess
        · cases hsess
          exact ⟨d, hd, removal_mem_clearOps.mp (hsuffix.subset hc)⟩
        · cases hsess
  obtain ⟨d, hd, hx⟩ := hof
  obtain ⟨o, ho, rfl⟩ := Option.map_eq_some_iff.mp hd
  exact ⟨o, ho, hx⟩

end Steps

/-- The tunnel address is assigned to the session. -/
def Session.HasAddress (sess : Session Conn) : IpAddr → Prop
  | .v4 ip => sess.assignedIp = some (.v4 ip)
  | .v6 ip => sess.assignedIpV6 = some ip

def Entry.ofAddress : IpAddr → Entry
  | .v4 ip => .route ip
  | .v6 ip => .routeV6 ip

lemma ofAddress_of {o : Object Conn} {d : IpAddr} :
    (Entry.ofAddress d).Of o.tenant ↔ o.sess.HasAddress d := by
  cases d <;> rfl

lemma holder_ofAddress (s : Server Conn) (d : IpAddr) :
    s.holder (.ofAddress d) = s.tab.route d := by
  cases d <;> rfl

/-! ### Steps that keep the routes in order -/

/-- What every step of the server does under the conditions below. -/
structure Tidies (s s' : Server Conn) : Prop where
  orderly : Orderly s'
  shift : ∃ a, Shift s s' a
  spares : Spares s s'
  keeps : ∀ (r : Ref) (o : Object Conn), s.heap[r]? = some o → ∃ o', s'.heap[r]? = some o' ∧
    ∀ d, o.sess.HasAddress d → o'.sess.HasAddress d

section Tidies

variable {s s' : Server Conn} {i : ℕ} {t : Task} {x : Option Stage}

lemma shift_refl (s : Server Conn) (a : SocketAddr) : Shift s s a :=
  shift_of_same (fun _ _ => Iff.rfl) (fun _ => rfl) a

lemma spares_of_shrink (h : ∀ e b, e.isAddress = true → s'.holder e = some b →
    s.holder e = some b) : Spares s s' := by
  intro e a b he ha hb
  exact Option.some_inj.mp (ha.symm.trans (h e b he hb))

lemma Tidies.refl (h : Orderly s) : Tidies s s :=
  ⟨h, ⟨⟨.v4 0, 0⟩, shift_refl s _⟩, spares_of_shrink fun _ _ _ hb => hb,
    fun _ o ho => ⟨o, ho, fun _ hd => hd⟩⟩

lemma hasAddress_of_ips {sess sess' : Session Conn} (hip : sess'.assignedIp = sess.assignedIp)
    (hip6 : sess'.assignedIpV6 = sess.assignedIpV6) {d : IpAddr} (h : sess.HasAddress d) :
    sess'.HasAddress d := by
  cases d
  · exact hip.trans h
  · exact hip6.trans h

lemma Acts.shrinks (ha : Acts s t s' x)
    (hl : ∀ ref ctrl replayPid, t.stage ≠ .locked ref ctrl replayPid) {e : Entry} {b : SocketAddr}
    (he : e.isAddress = true) (hb : s'.holder e = some b) : s.holder e = some b := by
  have hsame (hr : s'.tab = s.tab) : s.holder e = some b := by
    cases e with
    | route ip => rwa [Server.holder, hr] at hb
    | routeV6 ip => rwa [Server.holder, hr] at hb
    | _ => cases he
  cases ha with
  | handled ht => exact absurd ht (hl _ _ _)
  | @op ref op todo ht =>
    cases op with
    -- removing routes is all that a task without a locked session does to them
    | removeRoute ip =>
      rw [show MapOp.removeRoute ip = Entry.removal (.route ip) from rfl, holder_removal] at hb
      split at hb
      · cases hb
      · exact hb
    | removeRouteV6 ip =>
      rw [show MapOp.removeRouteV6 ip = Entry.removal (.routeV6 ip) from rfl, holder_removal] at hb
      split at hb
      · cases hb
      · exact hb
    | _ => exact hsame rfl
  | _ => exact hsame rfl

lemma Acts.heap (ha : Acts s t s' x)
    (hl : ∀ ref ctrl replayPid, t.stage ≠ .locked ref ctrl replayPid) {r : Ref} {o : Object Conn}
    (ho : s.heap[r]? = some o) : s'.heap[r]? = some o := by
  cases ha with
  | handled ht => exact absurd ht (hl _ _ _)
  | created =>
    rw [List.getElem?_append_left (List.getElem?_eq_some_iff.mp ho).1]
    exact ho
  | op =>
    rw [MapOp.heap_run]
    exact ho
  | _ => exact ho

lemma holding_keeps {o o' : Object Conn} {tab : Tables}
    (hold : o'.holding tab = o.holding tab) {d : IpAddr} (h : o.sess.HasAddress d) :
    o'.sess.HasAddress d :=
  hasAddress_of_ips (congrArg Holding.ip hold) (congrArg Holding.ip6 hold) h

lemma Enters.hasAddress {o o' : Object Conn} {addr : SocketAddr} {tab tab' : Tables}
    (hent : Enters addr (o.holding tab) (o'.holding tab')) {d : IpAddr} (h : o.sess.HasAddress d) :
    o'.sess.HasAddress d := by
  cases d with
  | v4 ip =>
    rcases hent.v4 with ⟨hip, -⟩ | ⟨hnone, -⟩
    · exact hip.trans h
    · cases hnone.symm.trans h
  | v6 ip =>
    rcases hent.v6 with ⟨hip, -⟩ | ⟨hnone, -⟩
    · exact hip.trans h
    · cases hnone.symm.trans h

lemma getElem?_set_object {l : List (Object Conn)} {ref r : Ref} {o o' x : Object Conn}
    (ho : l[ref]? = some o) (hx : l[r]? = some x) :
    (l.set ref o')[r]? = some (if r = ref then o' else x) := by
  by_cases hr : r = ref
  · subst hr
    rw [if_pos rfl, List.getElem?_set_self (List.getElem?_eq_some_iff.mp ho).1]
  · rw [if_neg hr, List.getElem?_set_ne (Ne.symm hr), hx]

lemma Tidies.touched (h : Orderly s) {ref : Ref} {o o' : Object Conn}
    (ho : s.heap[ref]? = some o) (hh : o'.home = o.home)
    (hold : o'.holding s.tab = o.holding s.tab) :
    Tidies s { s with heap := s.heap.set ref o' } := by
  obtain ⟨hord, hshift⟩ := h.touched ho hh hold rfl o.home
  refine ⟨hord, ⟨_, hshift⟩, spares_of_shrink fun e b he hb => ?_, fun r x hx => ?_⟩
  · cases e <;> first | exact hb | cases he
  · refine ⟨_, getElem?_set_object ho hx, fun d hd => ?_⟩
    split
    · rename_i hr
      subst hr
      cases ho.symm.trans hx
      exact holding_keeps hold hd
    · exact hd

lemma Tidies.served (h : Orderly s) {e : ServerEvent Conn} (hc : InTurn s e) (hs : Serves s e s')
    (hu : ∀ i env addr ref ctrl replayPid, e = .advance i env →
      s.tasks[i]? ≠ some (some ⟨addr, .locked ref ctrl replayPid⟩)) : Tidies s s' := by
  cases hs with
  | idle => exact .refl h
  | spawned addr stage hr he =>
    have hb : s.busy addr = false := by
      rcases he with rfl | rfl | ⟨ctrl, replayPid, transport, rfl⟩ <;> exact hc
    obtain ⟨hord, hshift⟩ := h.spawn hb hr
    exact ⟨hord, ⟨_, hshift⟩, spares_of_shrink fun _ _ _ hb => hb,
      fun _ o ho => ⟨o, ho, fun _ hd => hd⟩⟩
  | @advanced i env t s₁ stage ht ha =>
    have hl : ∀ ref ctrl replayPid, t.stage ≠ .locked ref ctrl replayPid := by
      intro ref ctrl replayPid hst
      refine hu i env t.addr ref ctrl replayPid rfl ?_
      rw [ht, ← hst]
    obtain ⟨hord, hshift⟩ := h.actsUnlocked ht ha (fun ref ctrl replayPid _ hst =>
      absurd hst (hl ref ctrl replayPid)) rfl
    refine ⟨hord, ⟨_, hshift⟩, spares_of_shrink fun e b he hb => ?_, fun r o ho => ?_⟩
    · refine ha.shrinks hl he ?_
      cases e <;> exact hb
    · exact ⟨o, ha.heap hl ho, fun _ hd => hd⟩
  | touched ref o o' ho hh hold => exact .touched h ho hh hold

lemma Tidies.worked (h : Orderly s) {addr : SocketAddr} {ref : Ref} {ctrl : ControlPacket}
    {replayPid : Option UInt32}
    (hi : s.tasks[i]? = some (some ⟨addr, .locked ref ctrl replayPid⟩)) {o o' : Object Conn}
    {tab : Tables} (ho : s.heap[ref]? = some o) (hh : o'.home = o.home)
    (hent : Enters addr (o.holding s.tab) (o'.holding tab))
    (hsp : ∀ e a b, e.isAddress = true → s.holder e = some a →
      Server.holder { s with heap := s.heap.set ref o', tab } e = some b → a = b)
    {tasks : List (Option Task)} (htasks : tasks = s.tasks ∨ tasks = s.tasks.set i none) :
    Tidies s { s with heap := s.heap.set ref o', tab, tasks } := by
  -- the task keeps its stage while the request is answered, and ends with it
  obtain ⟨x, hx, hset⟩ : ∃ x : Option Stage, (∀ st, x = some st → st = .locked ref ctrl replayPid) ∧
      tasks = s.tasks.set i (x.map (⟨addr, ·⟩)) := by
    rcases htasks with rfl | rfl
    · refine ⟨some (.locked ref ctrl replayPid), fun st hst => (Option.some.inj hst).symm, ?_⟩
      obtain ⟨hlt, ht⟩ := List.getElem?_eq_some_iff.mp hi
      rw [Option.map_some, ← ht, List.set_getElem_self hlt]
    · exact ⟨none, nofun, rfl⟩
  have hs' : ({ s with heap := s.heap.set ref o', tab, tasks } : Server Conn) =
      { s with heap := s.heap.set ref o', tab, tasks := s.tasks.set i (x.map (⟨addr, ·⟩)) } := by
    rw [hset]
  obtain ⟨hord, hshift⟩ := h.handled hi rfl ho hh hx hs'
  refine ⟨hord, ⟨_, hshift hent⟩, fun e a b he ha hb => ?_, fun r y hy => ?_⟩
  · refine hsp e a b he ha ?_
    cases e <;> exact hb
  · refine ⟨_, getElem?_set_object ho hy, fun d hd => ?_⟩
    split
    · rename_i hr
      subst hr
      cases ho.symm.trans hy
      exact hent.hasAddress hd
    · exact hd

end Tidies

/-! ### Whole runs -/

namespace FineServer

def claimed (f : FineServer Conn) (e : Entry) : Bool :=
  f.errands.any fun er => er.any fun
    | .push _ _ _ _ _ _ st => st.claims = some e
    | _ => false

/-- The session whose `PUSH_REQUEST` is the errand `k`, if no address has been chosen yet. -/
def asker (f : FineServer Conn) (k : ℕ) : Option (Session Conn) :=
  match f.errands[k]? with
  | some (some (.push _ _ ref _ _ _ .asked)) => (f.heap[ref]?).map Object.sess
  | _ => none

/-- A task starts at an address that no other is at work on. -/
def InTurn (f : FineServer Conn) : FineEvent Conn → Prop
  | .server e => Javs.InTurn f.toServer e
  | _ => True

/-- No session is given an address twice: none that has one asks again. -/
def AskOnce (f : FineServer Conn) : FineEvent Conn → Prop
  | .goOn k _ => ∀ sess ∈ f.asker k, sess.assignedIp = none ∧ sess.assignedIpV6 = none
  | _ => True

/-- An address is chosen only if it is not routed, and no other session is about to enter it. -/
def FreeChoice (S : VpnServer Conn) (f : FineServer Conn) : FineEvent Conn → Prop
  | .goOn k _ => ∀ e ∈ f.choice S k, f.holder e = none ∧ f.claimed e = false
  | _ => True

/-- When the session is looked up for a packet from the TUN, the route that led there stands. -/
def RouteStands (f : FineServer Conn) : FineEvent Conn → Prop
  | .goOn k _ =>
    match f.errands[k]? with
    | some (some (.routed addr ipPkt)) => f.routeTun ipPkt = some addr
    | _ => True
  | _ => True

instance (f : FineServer Conn) (e : FineEvent Conn) : Decidable (f.InTurn e) :=
  match e with
  | .server e => inferInstanceAs (Decidable (Javs.InTurn f.toServer e))
  | .tun _ | .goOn .. => instDecidableTrue

instance (f : FineServer Conn) (e : FineEvent Conn) : Decidable (f.AskOnce e) :=
  match e with
  | .goOn k _ => inferInstanceAs (Decidable (∀ sess ∈ f.asker k, _ ∧ _))
  | .server _ | .tun _ => instDecidableTrue

instance (S : VpnServer Conn) (f : FineServer Conn) (e : FineEvent Conn) :
    Decidable (FreeChoice S f e) :=
  match e with
  | .goOn k _ => inferInstanceAs (Decidable (∀ e ∈ f.choice S k, _ ∧ _))
  | .server _ | .tun _ => instDecidableTrue

instance (f : FineServer Conn) (e : FineEvent Conn) : Decidable (f.RouteStands e) :=
  match e with
  | .goOn k _ =>
    match h : f.errands[k]? with
    | some (some (.routed addr ipPkt)) =>
      decidable_of_iff (f.routeTun ipPkt = some addr) (by simp [RouteStands, h])
    | none | some none | some (some (.push ..)) | some (some (.found ..))
    | some (some (.opened ..)) => isTrue (by simp [RouteStands, h])
  | .server _ | .tun _ => instDecidableTrue

/-- The task, the session and the tables are as the answer to a `PUSH_REQUEST` in this stage
has left them. -/
def Ready (f : FineServer Conn) (i : ℕ) (addr : SocketAddr) (ref : Ref) (st : PushStage) : Prop :=
  ∃ ctrl replayPid o, f.tasks[i]? = some (some ⟨addr, .locked ref ctrl replayPid⟩) ∧
    f.heap[ref]? = some o ∧ st.Lacks o.sess.assignedIp o.sess.assignedIpV6 ∧
    ∀ e, st.claims = some e → f.holder e = none

def Answers (f : FineServer Conn) (k i : ℕ) (addr : SocketAddr) (ref : Ref) (st : PushStage) :
    Prop :=
  ∃ env log left, f.errands[k]? = some (some (.push i addr ref env log left st))

def Seals (f : FineServer Conn) (k : ℕ) (ref : Ref) (ipPkt : Bytes) : Prop :=
  ∃ addr, f.errands[k]? = some (some (.found addr ref ipPkt))

instance (f : FineServer Conn) (k : ℕ) (ref : Ref) (ipPkt : Bytes) :
    Decidable (f.Seals k ref ipPkt) :=
  match h : f.errands[k]? with
  | some (some (.found addr r ipPkt')) =>
    decidable_of_iff (r = ref ∧ ipPkt' = ipPkt) (by simp [Seals, h])
  | none | some none | some (some (.push ..)) | some (some (.routed ..))
  | some (some (.opened ..)) => isFalse (by simp [Seals, h])

/-- The errands are in order. -/
structure Errands (f : FineServer Conn) : Prop where
  ready : ∀ k i addr ref st, f.Answers k i addr ref st → f.Ready i addr ref st
  once : ∀ k k' i addr addr' ref ref' st st', f.Answers k i addr ref st →
    f.Answers k' i addr' ref' st' → k = k'
  apart : ∀ k k' i i' addr addr' ref ref' st st' e, f.Answers k i addr ref st →
    f.Answers k' i' addr' ref' st' → st.claims = some e → st'.claims = some e → k = k'
  seals : ∀ k ref ipPkt, f.Seals k ref ipPkt →
    ∃ o, f.heap[ref]? = some o ∧ ∀ d, tunDestination ipPkt = some d → o.sess.HasAddress d

end FineServer

section Errands

variable {S : VpnServer Conn} {f f' : FineServer Conn}

lemma claims_isAddress {st : PushStage} {e : Entry} (h : st.claims = some e) :
    e.isAddress = true := by
  unfold PushStage.claims at h
  split at h <;> cases h <;> rfl

lemma Tidies.sealing {s s' : Server Conn} (hp : Tidies s s') {ref : Ref} {ipPkt : Bytes}
    (h : ∃ o, s.heap[ref]? = some o ∧ ∀ d, tunDestination ipPkt = some d → o.sess.HasAddress d) :
    ∃ o, s'.heap[ref]? = some o ∧ ∀ d, tunDestination ipPkt = some d → o.sess.HasAddress d := by
  obtain ⟨o, ho, hd⟩ := h
  obtain ⟨o', ho', hkeep⟩ := hp.keeps ref o ho
  exact ⟨o', ho', fun d hdst => hkeep d (hd d hdst)⟩

lemma FineServer.Answers.held {k i : ℕ} {addr : SocketAddr} {ref : Ref} {st : PushStage}
    (h : f.Answers k i addr ref st) : f.held ref = true := by
  obtain ⟨env, log, left, hk⟩ := h
  exact List.any_eq_true.mpr ⟨_, List.mem_of_getElem? hk, by simp [Errand.holds]⟩

lemma FineServer.Answers.claimed {k i : ℕ} {addr : SocketAddr} {ref : Ref} {st : PushStage}
    (h : f.Answers k i addr ref st) {e : Entry} (he : st.claims = some e) :
    f.claimed e = true := by
  obtain ⟨env, log, left, hk⟩ := h
  exact List.any_eq_true.mpr ⟨_, List.mem_of_getElem? hk, by simp [he]⟩

lemma FineServer.Errands.frame (h : f.Errands)
    (hans : ∀ k i addr ref st, f'.Answers k i addr ref st → f.Answers k i addr ref st)
    (hready : ∀ k i addr ref st, f'.Answers k i addr ref st → f.Ready i addr ref st →
      f'.Ready i addr ref st)
    (hseals : ∀ k ref ipPkt, f'.Seals k ref ipPkt → f.Seals k ref ipPkt)
    (hp : Tidies f.toServer f'.toServer) : f'.Errands where
  ready k i addr ref st hk := hready k i addr ref st hk (h.ready _ _ _ _ _ (hans _ _ _ _ _ hk))
  once k k' i addr addr' ref ref' st st' hk hk' :=
    h.once k k' i addr addr' ref ref' st st' (hans _ _ _ _ _ hk) (hans _ _ _ _ _ hk')
  apart k k' i i' addr addr' ref ref' st st' e hk hk' :=
    h.apart k k' i i' addr addr' ref ref' st st' e (hans _ _ _ _ _ hk) (hans _ _ _ _ _ hk')
  seals k ref ipPkt hk := hp.sealing (h.seals k ref ipPkt (hseals k ref ipPkt hk))

lemma FineServer.Errands.renew (h : f.Errands) {k₀ i₀ : ℕ} {addr₀ : SocketAddr} {ref₀ : Ref}
    {st₀ : PushStage}
    (hans : ∀ k i addr ref st, f'.Answers k i addr ref st →
      (k = k₀ ∧ i = i₀ ∧ addr = addr₀ ∧ ref = ref₀ ∧ st = st₀) ∨
        k ≠ k₀ ∧ f.Answers k i addr ref st)
    (hnew : f'.Ready i₀ addr₀ ref₀ st₀)
    (hothers : ∀ k i addr ref st, k ≠ k₀ → f.Answers k i addr ref st →
      i ≠ i₀ ∧ (∀ e, st.claims = some e → st₀.claims ≠ some e) ∧ f'.Ready i addr ref st)
    (hseals : ∀ k ref ipPkt, f'.Seals k ref ipPkt → f.Seals k ref ipPkt)
    (hp : Tidies f.toServer f'.toServer) : f'.Errands where
  ready k i addr ref st hk := by
    rcases hans k i addr ref st hk with ⟨-, rfl, rfl, rfl, rfl⟩ | ⟨hne, hk⟩
    · exact hnew
    · exact (hothers k i addr ref st hne hk).2.2
  once k k' i addr addr' ref ref' st st' hk hk' := by
    rcases hans _ _ _ _ _ hk with ⟨rfl, hi, -⟩ | ⟨hne, hk⟩ <;>
      rcases hans _ _ _ _ _ hk' with ⟨rfl, hi', -⟩ | ⟨hne', hk'⟩
    · rfl
    · exact absurd hi (hothers _ _ _ _ _ hne' hk').1
    · exact absurd hi' (hothers _ _ _ _ _ hne hk).1
    · exact h.once k k' i addr addr' ref ref' st st' hk hk'
  apart k k' i i' addr addr' ref ref' st st' e hk hk' he he' := by
    rcases hans _ _ _ _ _ hk with ⟨rfl, -, -, -, rfl⟩ | ⟨hne, hk⟩ <;>
      rcases hans _ _ _ _ _ hk' with ⟨rfl, -, -, -, rfl⟩ | ⟨hne', hk'⟩
    · rfl
    · exact absurd he ((hothers _ _ _ _ _ hne' hk').2.1 e he')
    · exact absurd he' ((hothers _ _ _ _ _ hne hk).2.1 e he)
    · exact h.apart k k' i i' addr addr' ref ref' st st' e hk hk' he he'
  seals k ref ipPkt hk := hp.sealing (h.seals k ref ipPkt (hseals k ref ipPkt hk))

lemma FineServer.Ready.frame {i : ℕ} {addr : SocketAddr} {ref : Ref} {st : PushStage}
    (h : f.Ready i addr ref st) (ht : f'.tasks[i]? = f.tasks[i]?)
    (ho : ∀ o, f.heap[ref]? = some o → ∃ o', f'.heap[ref]? = some o' ∧
      o'.sess.assignedIp = o.sess.assignedIp ∧ o'.sess.assignedIpV6 = o.sess.assignedIpV6)
    (hh : ∀ e, st.claims = some e → f.holder e = none → f'.holder e = none) :
    f'.Ready i addr ref st := by
  obtain ⟨ctrl, replayPid, o, hi, hr, hl, hc⟩ := h
  obtain ⟨o', hr', hip, hip6⟩ := ho o hr
  exact ⟨ctrl, replayPid, o', ht.trans hi, hr', by rwa [hip, hip6], fun e he => hh e he (hc e he)⟩

lemma holder_of_shrinks {s s' : Server Conn} (h : ∀ e b, e.isAddress = true →
    s'.holder e = some b → s.holder e = some b) {st : PushStage} {e : Entry}
    (he : st.claims = some e) (hn : s.holder e = none) : s'.holder e = none := by
  rcases hb : s'.holder e with _ | b
  · rfl
  · cases hn.symm.trans (h e b (claims_isAddress he) hb)

lemma FineServer.Ready.beside {i i₀ : ℕ} {addr : SocketAddr} {ref ref₀ : Ref} {st : PushStage}
    (h : f.Ready i addr ref st) (hi : i ≠ i₀) (hr : ref ≠ ref₀) {o' : Object Conn}
    (hheap : f'.heap = f.heap.set ref₀ o')
    (htasks : f'.tasks = f.tasks ∨ f'.tasks = f.tasks.set i₀ none)
    (hh : ∀ e, st.claims = some e → f.holder e = none → f'.holder e = none) :
    f'.Ready i addr ref st := by
  refine h.frame ?_ (fun o ho => ⟨o, ?_, rfl, rfl⟩) hh
  · rcases htasks with ht | ht
    · rw [ht]
    · exact task_other ht hi
  · rw [hheap, List.getElem?_set_ne (Ne.symm hr), ho]

lemma FineServer.Errands.ref_ne (h : f.Errands) (hord : Orderly f.toServer) {k k' i i' : ℕ}
    {addr addr' : SocketAddr} {ref ref' : Ref} {st st' : PushStage}
    (hk : f.Answers k i addr ref st) (hk' : f.Answers k' i' addr' ref' st') (hne : k ≠ k') :
    i ≠ i' ∧ ref ≠ ref' := by
  have hi : i ≠ i' := by
    rintro rfl
    exact hne (h.once k k' i addr addr' ref ref' st st' hk hk')
  refine ⟨hi, ?_⟩
  rintro rfl
  obtain ⟨ctrl, replayPid, o, ht, -⟩ := h.ready _ _ _ _ _ hk
  obtain ⟨ctrl', replayPid', o', ht', -⟩ := h.ready _ _ _ _ _ hk'
  -- a session is at home in one address, and there one task works on it
  obtain ⟨d, hd, hhome⟩ := hord.home addr ref (hord.fits i _ ht)
  obtain ⟨d', hd', hhome'⟩ := hord.home addr' ref (hord.fits i' _ ht')
  cases hd.symm.trans hd'
  exact hi (hord.alone i i' _ _ ht ht' (hhome.symm.trans hhome'))

lemma FineServer.Errands.served (h : f.Errands) {e : ServerEvent Conn} {s' : Server Conn}
    (hs : Serves f.toServer e s')
    (hu : ∀ i env addr ref ctrl replayPid, e = .advance i env →
      f.tasks[i]? ≠ some (some ⟨addr, .locked ref ctrl replayPid⟩))
    (hp : Tidies f.toServer s') : FineServer.Errands { f with toServer := s' } := by
  refine h.frame (fun _ _ _ _ _ hk => hk) (fun k i addr ref st _ hready => ?_)
    (fun _ _ _ hk => hk) hp
  obtain ⟨ctrl, replayPid, o, ht, -⟩ := id hready
  cases hs with
  | idle => exact hready
  | spawned a stage =>
    refine hready.frame ?_ (fun o ho => ⟨o, ho, rfl, rfl⟩) fun _ _ hn => hn
    exact (spawn_task ht).trans ht.symm
  | @advanced j env t s₁ stage hj ha =>
    have hl : ∀ ref ctrl replayPid, t.stage ≠ .locked ref ctrl replayPid := by
      intro ref ctrl replayPid hst
      refine hu j env t.addr ref ctrl replayPid rfl ?_
      rw [hj, ← hst]
    -- a task with an answer under way is locked, and so it is not the one that advances
    have hij : i ≠ j := by
      rintro rfl
      cases ht.symm.trans hj
      exact hl _ _ _ rfl
    refine hready.frame (task_other rfl hij) (fun o ho => ⟨o, ha.heap hl ho, rfl, rfl⟩)
      fun e he hn => holder_of_shrinks (fun e b he hb => ha.shrinks hl he ?_) he hn
    cases e <;> exact hb
  | touched r o₁ o' ho₁ hh hold =>
    refine hready.frame rfl (fun o ho => ⟨_, getElem?_set_object ho₁ ho, ?_⟩) fun e he hn => ?_
    · split
      · rename_i hr
        subst hr
        cases ho₁.symm.trans ho
        exact ⟨congrArg Holding.ip hold, congrArg Holding.ip6 hold⟩
      · exact ⟨rfl, rfl⟩
    · have haddr := claims_isAddress he
      cases e <;> first | exact hn | cases haddr

lemma errands_of_aside {errands : List (Option (Errand Conn))} (f' : FineServer Conn)
    (hf : f'.errands = errands)
    (her : (∃ er, er.holds = none ∧ (∀ addr r ipPkt, er ≠ .found addr r ipPkt) ∧
        errands = f.errands ++ [some er]) ∨
      errands = f.errands ∨ ∃ k, errands = f.errands.set k none) :
    (∀ k i addr ref st, f'.Answers k i addr ref st → f.Answers k i addr ref st) ∧
      ∀ k ref ipPkt, f'.Seals k ref ipPkt → f.Seals k ref ipPkt := by
  have hold : ∀ (k : ℕ) er, f'.errands[k]? = some (some er) →
      (er.holds ≠ none ∨ ∃ addr r ipPkt, er = .found addr r ipPkt) →
      f.errands[k]? = some (some er) := by
    intro k er hk hkind
    rw [hf] at hk
    rcases her with ⟨er', hn, hne, rfl⟩ | rfl | ⟨j, rfl⟩
    · rcases getElem?_concat_cases hk with ⟨-, hx⟩ | hk
      · cases hx
        rcases hkind with hkind | ⟨addr, r, ipPkt, rfl⟩
        · exact absurd hn hkind
        · exact absurd rfl (hne addr r ipPkt)
      · exact hk
    · exact hk
    · rcases getElem?_set_cases hk with ⟨-, hx⟩ | ⟨-, hk⟩
      · cases hx
      · exact hk
  constructor
  · rintro k i addr r st ⟨env, log, left, hk⟩
    exact ⟨env, log, left, hold k _ hk (.inl nofun)⟩
  · rintro k r ipPkt ⟨addr, hk⟩
    exact ⟨addr, hold k _ hk (.inr ⟨addr, r, ipPkt, rfl⟩)⟩

lemma FineServer.Errands.touched (h : f.Errands) {ref : Ref} {o o' : Object Conn}
    {errands : List (Option (Errand Conn))} (ho : f.heap[ref]? = some o)
    (hold : o'.holding f.tab = o.holding f.tab)
    (her : (∃ er, er.holds = none ∧ (∀ addr r ipPkt, er ≠ .found addr r ipPkt) ∧
        errands = f.errands ++ [some er]) ∨
      errands = f.errands ∨ ∃ k, errands = f.errands.set k none)
    (hp : Tidies f.toServer { f.toServer with heap := f.heap.set ref o' }) :
    FineServer.Errands { f with heap := f.heap.set ref o', errands } := by
  obtain ⟨hans, hseals⟩ := errands_of_aside
    { f with heap := f.heap.set ref o', errands } rfl her
  refine h.frame hans (fun k i addr r st _ hready => ?_) hseals hp
  refine hready.frame rfl (fun o₁ ho₁ => ⟨_, getElem?_set_object ho ho₁, ?_⟩) fun e he hn => ?_
  · split
    · rename_i hr
      subst hr
      cases ho.symm.trans ho₁
      exact ⟨congrArg Holding.ip hold, congrArg Holding.ip6 hold⟩
    · exact ⟨rfl, rfl⟩
  · have haddr := claims_isAddress he
    cases e <;> first | exact hn | cases haddr

lemma FineServer.Errands.aside (h : f.Errands) (hord : Orderly f.toServer)
    {errands : List (Option (Errand Conn))}
    (her : (∃ er, er.holds = none ∧ (∀ addr r ipPkt, er ≠ .found addr r ipPkt) ∧
        errands = f.errands ++ [some er]) ∨
      errands = f.errands ∨ ∃ k, errands = f.errands.set k none) :
    FineServer.Errands { f with errands } := by
  obtain ⟨hans, hseals⟩ := errands_of_aside { f with errands } rfl her
  exact h.frame hans (fun _ _ _ _ _ _ hready => hready) hseals (.refl hord)

lemma FineServer.Ready.besideSteady {i i₀ : ℕ} {addr addr₀ : SocketAddr} {ref ref₀ : Ref}
    {st : PushStage} {ctrl : ControlPacket} {replayPid : Option UInt32}
    (h : f.Ready i addr ref st) (hheld : f.held ref = true) (hn : f.held ref₀ = false)
    (hi₀ : f.tasks[i₀]? = some (some ⟨addr₀, .locked ref₀ ctrl replayPid⟩)) {o' : Object Conn}
    (hheap : f'.heap = f.heap.set ref₀ o') (htab : f'.tab = f.tab)
    (htasks : f'.tasks = f.tasks ∨ f'.tasks = f.tasks.set i₀ none) : f'.Ready i addr ref st := by
  have hr : ref ≠ ref₀ := by
    rintro rfl
    exact Bool.false_ne_true (hn.symm.trans hheld)
  have hi : i ≠ i₀ := by
    rintro rfl
    obtain ⟨ctrl', replayPid', o, ht, -⟩ := h
    cases ht.symm.trans hi₀
    exact hr rfl
  refine h.beside hi hr hheap htasks fun e he hnone => ?_
  have haddr := claims_isAddress he
  cases e <;> simp only [Server.holder, htab] at hnone ⊢ <;> first | exact hnone | cases haddr

lemma Pushed.holder {addr : SocketAddr} {h h' : Holding} {st : PushStage} {x : Option PushStage}
    (hp : Pushed addr h h' st x) (s s' : Server Conn) (hs : s.tab = h.tab) (hs' : s'.tab = h'.tab)
    {e : Entry} {b : SocketAddr} (he : e.isAddress = true) (hb : s'.holder e = some b) :
    s.holder e = some b ∨ st.claims = some e := by
  have hsame (hst : Steady h h') : s.holder e = some b := by
    cases e with
    | route ip => simpa only [Server.holder, hs, hs', hst.routes] using hb
    | routeV6 ip => simpa only [Server.holder, hs, hs', hst.routesV6] using hb
    | _ => cases he
  cases hp with
  | failed _ hst | chosen _ hst | drawn _ _ hst => exact .inl (hsame hst)
  -- the two steps that enter a route enter the one that their stage claims
  | routed ip _ _ hr _ hr6 =>
    cases e with
    | route a =>
      by_cases ha : a = ip
      · exact .inr (by rw [ha]; rfl)
      · left
        simpa only [Server.holder, hs, hs', hr, Function.update_of_ne ha] using hb
    | routeV6 a => exact .inl (by simpa only [Server.holder, hs, hs', hr6] using hb)
    | _ => cases he
  | ended ip ip6 _ _ hr _ hr6 =>
    cases e with
    | route a => exact .inl (by simpa only [Server.holder, hs, hs', hr] using hb)
    | routeV6 a =>
      by_cases ha : a = ip6
      · exact .inr (by rw [ha]; rfl)
      · left
        simpa only [Server.holder, hs, hs', hr6, Function.update_of_ne ha] using hb
    | _ => cases he

lemma FineServer.Errands.handled (h : f.Errands) {i : ℕ} {addr : SocketAddr} {ref : Ref}
    {ctrl : ControlPacket} {replayPid : Option UInt32} {o' : Object Conn}
    (hi : f.tasks[i]? = some (some ⟨addr, .locked ref ctrl replayPid⟩)) (hn : f.held ref = false)
    (hp : Tidies f.toServer
      { f.toServer with heap := f.heap.set ref o', tasks := f.tasks.set i none }) :
    FineServer.Errands { f with heap := f.heap.set ref o', tasks := f.tasks.set i none } :=
  h.frame (fun _ _ _ _ _ hk => hk) (fun _ _ _ _ _ hk hready =>
    hready.besideSteady (FineServer.Answers.held (f := f) hk) hn hi rfl rfl (.inr rfl))
    (fun _ _ _ hk => hk) hp

lemma FineServer.Errands.asked (h : f.Errands) {i left : ℕ} {addr : SocketAddr} {ref : Ref}
    {ctrl : ControlPacket} {replayPid : Option UInt32} {o o' : Object Conn} {env : Env Conn}
    {log : List Effect} (hi : f.tasks[i]? = some (some ⟨addr, .locked ref ctrl replayPid⟩))
    (hn : f.held ref = false) (ho : f.heap[ref]? = some o)
    (hp : Tidies f.toServer { f.toServer with heap := f.heap.set ref o' }) :
    FineServer.Errands
      { f with heap := f.heap.set ref o',
               errands := f.errands ++ [some (.push i addr ref env log left .asked)] } := by
  set f' : FineServer Conn :=
    { f with heap := f.heap.set ref o',
             errands := f.errands ++ [some (.push i addr ref env log left .asked)] } with hf'
  have hnew : f'.Ready i addr ref .asked :=
    ⟨ctrl, replayPid, o', hi, List.getElem?_set_self (List.getElem?_eq_some_iff.mp ho).1, trivial,
      fun _ he => by cases he⟩
  have hans : ∀ k j a r st, f'.Answers k j a r st →
      (k = f.errands.length ∧ j = i ∧ a = addr ∧ r = ref ∧ st = .asked) ∨
        k ≠ f.errands.length ∧ f.Answers k j a r st := by
    rintro k j a r st ⟨env', log', left', hk⟩
    rcases getElem?_concat_cases hk with ⟨rfl, hx⟩ | hold
    · cases hx
      exact .inl ⟨rfl, rfl, rfl, rfl, rfl⟩
    · exact .inr ⟨(List.getElem?_eq_some_iff.mp hold).1.ne, env', log', left', hold⟩
  refine h.renew hans hnew (fun k j a r st _ hk => ?_) ?_ hp
  · have hready := h.ready k j a r st hk
    refine ⟨?_, fun _ _ he => (by cases he),
      hready.besideSteady hk.held hn hi rfl rfl (.inl rfl)⟩
    rintro rfl
    obtain ⟨ctrl', replayPid', o₁, ht, -⟩ := hready
    cases ht.symm.trans hi
    exact Bool.false_ne_true (hn.symm.trans hk.held)
  · rintro k r ipPkt ⟨a, hk⟩
    rcases getElem?_concat_cases hk with ⟨-, hx⟩ | hold
    · cases hx
    · exact ⟨a, hold⟩

lemma FineServer.Errands.readyBeside (h : f.Errands) (hord : Orderly f.toServer)
    (f' : FineServer Conn) {k₀ i₀ : ℕ} {addr₀ : SocketAddr} {ref₀ : Ref} {st₀ : PushStage}
    {x : Option PushStage} {o o' : Object Conn}
    (hk₀ : f.Answers k₀ i₀ addr₀ ref₀ st₀)
    (hp : Pushed addr₀ (o.holding f.tab) (o'.holding f'.tab) st₀ x)
    (hheap : f'.heap = f.heap.set ref₀ o')
    (htasks : f'.tasks = f.tasks ∨ f'.tasks = f.tasks.set i₀ none) {k i : ℕ} {addr : SocketAddr}
    {ref : Ref} {st : PushStage} (hk : f.Answers k i addr ref st) (hne : k ≠ k₀) :
    f'.Ready i addr ref st := by
  obtain ⟨hi, hr⟩ := h.ref_ne hord hk hk₀ hne
  refine (h.ready _ _ _ _ _ hk).beside hi hr hheap htasks fun e he hnone => ?_
  rcases hb : f'.holder e with _ | b
  · rfl
  rcases hp.holder f.toServer f'.toServer rfl rfl (claims_isAddress he) hb with hold | hcl
  · cases hnone.symm.trans hold
  · exact absurd (h.apart _ _ _ _ _ _ _ _ _ _ e hk hk₀ he hcl) hne

lemma FineServer.Errands.pushed (h : f.Errands) (hord : Orderly f.toServer) {k i left : ℕ}
    {addr : SocketAddr} {ref : Ref} {env env' : Env Conn} {log log' : List Effect}
    {st st' : PushStage} {o o' : Object Conn} {tab : Tables}
    (hk : f.errands[k]? = some (some (.push i addr ref env log left st)))
    (ho : f.heap[ref]? = some o)
    (hp : Pushed addr (o.holding f.tab) (o'.holding tab) st (some st'))
    (hask : st = .asked → o.sess.assignedIp = none ∧ o.sess.assignedIpV6 = none)
    (hfree : ∀ e, st'.claims = some e → f.holder e = none ∧ f.claimed e = false)
    (hpass : Tidies f.toServer { f.toServer with heap := f.heap.set ref o', tab }) :
    FineServer.Errands
      { f with heap := f.heap.set ref o', tab,
               errands := f.errands.set k (some (.push i addr ref env' log' left st')) } := by
  have hk₀ : f.Answers k i addr ref st := ⟨env, log, left, hk⟩
  obtain ⟨ctrl, replayPid, o₁, hi, ho₁, hl, hnone⟩ := h.ready _ _ _ _ _ hk₀
  cases ho.symm.trans ho₁
  set f' : FineServer Conn :=
    { f with heap := f.heap.set ref o', tab,
             errands := f.errands.set k (some (.push i addr ref env' log' left st')) } with hf'
  have hholder : ∀ e, st'.claims = some e → f'.holder e = none := by
    intro e he
    rcases hb : f'.holder e with _ | b
    · rfl
    rcases hp.holder f.toServer f'.toServer rfl rfl (claims_isAddress he) hb with hold | hcl
    · cases (hfree e he).1.symm.trans hold
    · exact absurd ((hfree e he).2.symm.trans (hk₀.claimed hcl)) Bool.false_ne_true
  have hnew : f'.Ready i addr ref st' :=
    ⟨ctrl, replayPid, o', hi, List.getElem?_set_self (List.getElem?_eq_some_iff.mp ho).1,
      hp.lacks hl hask rfl, hholder⟩
  have hans : ∀ k' j a r st₁, f'.Answers k' j a r st₁ →
      (k' = k ∧ j = i ∧ a = addr ∧ r = ref ∧ st₁ = st') ∨ k' ≠ k ∧ f.Answers k' j a r st₁ := by
    rintro k' j a r st₁ ⟨env₁, log₁, left₁, hk'⟩
    rcases getElem?_set_cases hk' with ⟨rfl, hx⟩ | ⟨hne, hold⟩
    · cases hx
      exact .inl ⟨rfl, rfl, rfl, rfl, rfl⟩
    · exact .inr ⟨hne, env₁, log₁, left₁, hold⟩
  refine h.renew hans hnew (fun k' j a r st₁ hne hk' => ?_) ?_ hpass
  · refine ⟨(h.ref_ne hord hk' hk₀ hne).1, fun e he he' => ?_, ?_⟩
    · exact Bool.false_ne_true ((hfree e he').2.symm.trans (hk'.claimed he))
    · exact h.readyBeside hord f' hk₀ hp rfl (.inl rfl) hk' hne
  · rintro k' r ipPkt ⟨a, hk'⟩
    rcases getElem?_set_cases hk' with ⟨-, hx⟩ | ⟨-, hold⟩
    · cases hx
    · exact ⟨a, hold⟩

lemma FineServer.Errands.answered (h : f.Errands) (hord : Orderly f.toServer) {k i left : ℕ}
    {addr : SocketAddr} {ref : Ref} {env : Env Conn} {log : List Effect}
    {st : PushStage} {o o' : Object Conn} {tab : Tables}
    (hk : f.errands[k]? = some (some (.push i addr ref env log left st)))
    (hp : Pushed addr (o.holding f.tab) (o'.holding tab) st none)
    (hpass : Tidies f.toServer
      { f.toServer with heap := f.heap.set ref o', tab, tasks := f.tasks.set i none }) :
    FineServer.Errands { f with heap := f.heap.set ref o', tab, tasks := f.tasks.set i none,
                                errands := f.errands.set k none } := by
  have hk₀ : f.Answers k i addr ref st := ⟨env, log, left, hk⟩
  obtain ⟨hans, hseals⟩ := errands_of_aside (f := f)
    { f with heap := f.heap.set ref o', tab, tasks := f.tasks.set i none,
             errands := f.errands.set k none } rfl (.inr (.inr ⟨k, rfl⟩))
  refine h.frame hans (fun k' j a r st₁ hk' _ => ?_) hseals hpass
  have hne : k' ≠ k := by
    rintro rfl
    obtain ⟨env₁, log₁, left₁, hk'⟩ := hk'
    rcases getElem?_set_cases hk' with ⟨-, hx⟩ | ⟨hne, -⟩
    · cases hx
    · exact hne rfl
  exact h.readyBeside hord _ hk₀ hp rfl (.inr rfl) (hans _ _ _ _ _ hk') hne

lemma FineServer.Errands.found (h : f.Errands) (hord : Orderly f.toServer)
    (hown : Owning f.toServer) {k : ℕ} {addr : SocketAddr} {ref : Ref} {ipPkt : Bytes}
    (hroute : f.routeTun ipPkt = some addr) (hs : f.sessions addr = some ref) :
    (f.update k (some (.found addr ref ipPkt))).Errands := by
  have hans : ∀ k' i a r st, (f.update k (some (.found addr ref ipPkt))).Answers k' i a r st →
      f.Answers k' i a r st := by
    rintro k' i a r st ⟨env, log, left, hk'⟩
    rcases getElem?_set_cases hk' with ⟨-, hx⟩ | ⟨-, hold⟩
    · cases hx
    · exact ⟨env, log, left, hold⟩
  refine ⟨fun k' i a r st hk' => h.ready k' i a r st (hans _ _ _ _ _ hk'),
    fun k₁ k₂ i a₁ a₂ r₁ r₂ st₁ st₂ h₁ h₂ =>
      h.once k₁ k₂ i a₁ a₂ r₁ r₂ st₁ st₂ (hans _ _ _ _ _ h₁) (hans _ _ _ _ _ h₂),
    fun k₁ k₂ i₁ i₂ a₁ a₂ r₁ r₂ st₁ st₂ e h₁ h₂ =>
      h.apart k₁ k₂ i₁ i₂ a₁ a₂ r₁ r₂ st₁ st₂ e (hans _ _ _ _ _ h₁) (hans _ _ _ _ _ h₂), ?_⟩
  rintro k' r ipPkt' ⟨a, hk'⟩
  rcases getElem?_set_cases hk' with ⟨-, hx⟩ | ⟨-, hold⟩
  -- the session found under the address owns the route, since `sessions` and the routes agree
  · cases hx
    obtain ⟨d, hd, hr⟩ := Option.bind_eq_some_iff.mp hroute
    obtain ⟨o, ho, hof⟩ := hord.of_owned
      (hown (.ofAddress d) addr ((holder_ofAddress _ d).trans hr)) hs
    refine ⟨o, ho, fun d' hd' => ?_⟩
    cases hd.symm.trans hd'
    exact ofAddress_of.mp hof
  · exact h.seals k' r ipPkt' ⟨a, hold⟩

lemma Pushed.spares {addr : SocketAddr} {st : PushStage} {x : Option PushStage} {s : Server Conn}
    {ref : Ref} {o o' : Object Conn} {tab : Tables}
    (hp : Pushed addr (o.holding s.tab) (o'.holding tab) st x)
    (hnone : ∀ e, st.claims = some e → s.holder e = none) (e : Entry) (a b : SocketAddr)
    (he : e.isAddress = true) (ha : s.holder e = some a)
    (hb : Server.holder { s with heap := s.heap.set ref o', tab } e = some b) : a = b := by
  rcases hp.holder s { s with heap := s.heap.set ref o', tab } rfl rfl he hb with hold | hcl
  · exact Option.some_inj.mp (ha.symm.trans hold)
  · cases (hnone e hcl).symm.trans ha

/-- What holds in every state that is reached under the conditions. -/
structure Sound (f : FineServer Conn) : Prop where
  orderly : Orderly f.toServer
  owning : Owning f.toServer
  routed : Routed f.toServer
  errands : f.Errands

lemma Sound.passes (h : Sound f) (hp : Tidies f.toServer f'.toServer) (he : f'.Errands) :
    Sound f' := by
  obtain ⟨a, hs⟩ := hp.shift
  exact ⟨hp.orderly, h.owning.shift hs, h.routed.shift hp.spares hs, he⟩

lemma Sound.worked (h : Sound f) {i : ℕ} {addr : SocketAddr} {ref : Ref} {ctrl : ControlPacket}
    {replayPid : Option UInt32}
    (hi : f.tasks[i]? = some (some ⟨addr, .locked ref ctrl replayPid⟩)) {o o' : Object Conn}
    (ho : f.heap[ref]? = some o) (hh : o'.home = o.home)
    (hs : Steady (o.holding f.tab) (o'.holding f.tab)) {tasks : List (Option Task)}
    (htasks : tasks = f.tasks ∨ tasks = f.tasks.set i none) :
    Tidies f.toServer { f.toServer with heap := f.heap.set ref o', tasks } := by
  have hp : Pushed addr (o.holding f.tab) (o'.holding f.tab) .asked none := .failed _ hs
  exact .worked h.orderly hi ho hh hs.enters (hp.spares fun _ he => by cases he) htasks

lemma Sound.answer (h : Sound f) {k i left : ℕ} {addr : SocketAddr} {ref : Ref} {env : Env Conn}
    {log : List Effect} {st : PushStage} {x : Option PushStage} {o o' : Object Conn} {tab : Tables}
    (hk : f.errands[k]? = some (some (.push i addr ref env log left st)))
    (ho : f.heap[ref]? = some o) (hh : o'.home = o.home)
    (hp : Pushed addr (o.holding f.tab) (o'.holding tab) st x) {tasks : List (Option Task)}
    (htasks : tasks = f.tasks ∨ tasks = f.tasks.set i none) :
    Tidies f.toServer { f.toServer with heap := f.heap.set ref o', tab, tasks } := by
  obtain ⟨ctrl, replayPid, o₁, hi, ho₁, hl, hnone⟩ := h.errands.ready _ _ _ _ _ ⟨env, log, left, hk⟩
  cases ho.symm.trans ho₁
  exact .worked h.orderly hi ho hh (hp.enters hl) (hp.spares hnone) htasks

lemma Sound.not_lost (h : Sound f) {ref : Ref} (hn : f.heap[ref]? = none) :
    ¬ ((∃ (i : ℕ) (addr : SocketAddr) (ctrl : ControlPacket) (replayPid : Option UInt32),
          f.tasks[i]? = some (some ⟨addr, .locked ref ctrl replayPid⟩)) ∨
        ∃ (k i : ℕ) (addr : SocketAddr) (env : Env Conn) (log : List Effect) (left : ℕ)
          (st : PushStage), f.errands[k]? = some (some (.push i addr ref env log left st))) := by
  have hlocked : ∀ (i : ℕ) addr ctrl replayPid,
      f.tasks[i]? ≠ some (some ⟨addr, .locked ref ctrl replayPid⟩) := by
    intro i addr ctrl replayPid hi
    obtain ⟨d, hd, -⟩ := h.orderly.home addr ref (h.orderly.fits i _ hi)
    obtain ⟨o, ho, -⟩ := Option.map_eq_some_iff.mp hd
    cases hn.symm.trans ho
  rintro (⟨i, addr, ctrl, replayPid, hi⟩ | ⟨k, i, addr, env, log, left, st, hk⟩)
  · exact hlocked i addr ctrl replayPid hi
  · obtain ⟨ctrl, replayPid, -, hi, -⟩ := h.errands.ready _ _ _ _ _ ⟨env, log, left, hk⟩
    exact hlocked i addr ctrl replayPid hi

/-- **One event.** -/
lemma Sound.fine (h : Sound f) {e : FineEvent Conn}
    (hc : f.InTurn e ∧ f.AskOnce e ∧ FineServer.FreeChoice S f e ∧ f.RouteStands e) :
    Sound (fine S f e) := by
  obtain ⟨hturn, honce, hfree, hstands⟩ := hc
  have hf := fine_fines S f e
  generalize Javs.fine S f e = f' at hf
  cases hf with
  | idle => exact h
  | served hs hu =>
    have hp := Tidies.served h.orderly hturn hs hu
    exact h.passes hp (h.errands.served hs hu hp)
  | touched ref o o' errands ho hh hold her =>
    have hp := Tidies.touched h.orderly ho hh hold
    exact h.passes hp (h.errands.touched ho hold her hp)
  | handled o o' hi hn ho hh hs =>
    have hp := h.worked hi ho hh hs (.inr rfl)
    exact h.passes hp (h.errands.handled hi hn hp)
  | asked o o' env' log left hi hn ho hh hs =>
    have hp := h.worked hi ho hh hs (.inl rfl)
    exact h.passes hp (h.errands.asked hi hn ho hp)
  | pushed st' env' log' o o' tab hk ho hh hpushed hchoice =>
    have hp := h.answer hk ho hh hpushed (.inl rfl)
    refine h.passes hp (h.errands.pushed h.orderly hk ho hpushed ?_ ?_ hp)
    -- where an address is chosen, the session has none yet and the address is free
    · rintro rfl
      refine honce o.sess ?_
      simp [FineServer.asker, hk, ho]
    · intro e he
      exact hfree e (hchoice.trans he)
  | answered o o' tab hk ho hh hpushed =>
    have hp := h.answer hk ho hh hpushed (.inr rfl)
    exact h.passes hp (h.errands.answered h.orderly hk hpushed hp)
  | routed addr hr =>
    exact h.passes (.refl h.orderly) (h.errands.aside h.orderly
      (.inl ⟨.routed addr _, rfl, fun _ _ _ => nofun, rfl⟩))
  | found ref hk hs =>
    -- the route may be gone by the time the session is looked up; the condition excludes that
    refine h.passes (.refl h.orderly) (h.errands.found h.orderly h.owning ?_ hs)
    simpa only [FineServer.RouteStands, hk] using hstands
  | ended hk hn =>
    exact h.passes (.refl h.orderly) (h.errands.aside h.orderly (.inr (.inr ⟨_, rfl⟩)))
  | lost ref hn hr => exact absurd hr (h.not_lost hn)

end Errands

end Javs
