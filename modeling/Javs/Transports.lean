import Javs.Network

/-!
Sessions and the transports they were created over.

One map, keyed by socket address, holds the sessions of both listeners. A UDP client and a TCP
stream with the same address therefore meet at one entry: control packets of the one are
handled against the session of the other, and the end of the stream removes it. Where every
address is left by one transport before another one uses it, this does not happen.
-/

namespace Javs

open Lib

variable {Conn : Type}

/-- The session against which the task at `i` is about to handle a control packet, or which it
is about to take out of the map because a stream has ended. -/
def Net.handles (n : Net Conn) (i : ℕ) : Option Ref :=
  match n.server.tasks[i]? with
  | some (some ⟨_, .locked ref ..⟩) => some ref
  | some (some ⟨addr, .closing⟩) => n.server.sessions addr
  | _ => none

/-- A session is only handled, or taken out of the map, for the transport it was created over:
that of the control packet, or the stream that has ended. -/
def OwnTransport (n : Net Conn) : NetEvent Conn → Prop
  | .advance i _ =>
    ∀ ref ∈ n.handles i, ∀ transport ∈ n.origins[i]?.join, n.made[ref]? = some transport
  | _ => True

instance (n : Net Conn) (e : NetEvent Conn) : Decidable (OwnTransport n e) :=
  match e with
  | .advance i _ => inferInstanceAs (Decidable
      (∀ ref ∈ n.handles i, ∀ transport ∈ n.origins[i]?.join, n.made[ref]? = some transport))
  | .packet .. | .work .. | .ended _ | .reap _ | .forward .. | .tick .. => instDecidableTrue

def Net.Vacant (n : Net Conn) (addr : SocketAddr) : Prop :=
  n.server.sessions addr = none ∧ ∀ t ∈ n.server.tasks, t.all (·.addr ≠ addr) = true

instance (n : Net Conn) (addr : SocketAddr) : Decidable (n.Vacant addr) :=
  inferInstanceAs (Decidable (_ ∧ _))

/-- A control packet, or the end of a stream, comes over the transport last heard from at its
address, or to an address that is vacant. -/
def Undisputed (S : VpnServer Conn) (peer : ℕ → SocketAddr) (n : Net Conn) (e : NetEvent Conn) :
    Prop :=
  match e.arrival S peer with
  | none => True
  | some transport =>
    match n.last (transport.addr peer) with
    | none => True
    | some transport' => transport' = transport ∨ n.Vacant (transport.addr peer)

instance (S : VpnServer Conn) (peer : ℕ → SocketAddr) (n : Net Conn) (e : NetEvent Conn) :
    Decidable (Undisputed S peer n e) := by
  unfold Undisputed
  split
  · infer_instance
  · split <;> infer_instance

/-! ### Sessions and tasks of one transport -/

/-- The session was created over the transport last heard from at the address. -/
def Owns (last : SocketAddr → Option Transport) (made : List Transport) (addr : SocketAddr)
    (ref : Ref) : Prop :=
  ∃ transport, last addr = some transport ∧ made[ref]? = some transport

/-- What a task carries belongs to the transport last heard from at its address. -/
def Task.Carries (last : SocketAddr → Option Transport) (made : List Transport) (t : Task) : Prop :=
  match t.stage with
  | .arrived _ _ transport | .create _ _ transport => last t.addr = some transport
  | .locked ref .. => Owns last made t.addr ref
  | .ops ref todo => .insertSession ∈ todo → Owns last made t.addr ref
  | _ => True

/-- At each address everything belongs to the transport last heard from there. -/
structure Separate (n : Net Conn) : Prop where
  origins_length : n.origins.length = n.server.tasks.length
  made_length : n.made.length = n.server.heap.length
  filed : ∀ addr ref, n.server.sessions addr = some ref → Owns n.last n.made addr ref
  origin : ∀ (i : ℕ) t transport, n.server.tasks[i]? = some (some t) →
    n.origins[i]? = some (some transport) → n.last t.addr = some transport
  carried : ∀ (i : ℕ) t, n.server.tasks[i]? = some (some t) → t.Carries n.last n.made

section Separate

variable {S : VpnServer Conn} {peer : ℕ → SocketAddr} {n : Net Conn} {e : NetEvent Conn}
  {last : SocketAddr → Option Transport} {made : List Transport}

lemma separate_new (p : Pools) : Separate (Net.new p : Net Conn) := by
  refine ⟨rfl, rfl, fun _ _ hs => ?_, fun _ _ _ ht _ => ?_, fun _ _ ht => ?_⟩
  · simp [Net.new, Server.new] at hs
  · simp [Net.new, Server.new] at ht
  · simp [Net.new, Server.new] at ht

lemma Owns.made_append {addr : SocketAddr} {ref : Ref} (h : Owns last made addr ref)
    (more : List Transport) : Owns last (made ++ more) addr ref := by
  obtain ⟨transport, hlast, hmade⟩ := h
  refine ⟨transport, hlast, ?_⟩
  rw [List.getElem?_append_left (List.getElem?_eq_some_iff.mp hmade).1]
  exact hmade

lemma Task.Carries.made_append {t : Task} (h : t.Carries last made) (more : List Transport) :
    t.Carries last (made ++ more) := by
  obtain ⟨addr, stage⟩ := t
  cases stage with
  | arrived | create => exact h
  | locked => exact Owns.made_append h more
  | ops => exact fun hmem => (h hmem).made_append more
  | lookup | visit | reap | closing | teardown => trivial

lemma Separate.ownTransport (h : Separate n) (e : NetEvent Conn) : OwnTransport n e := by
  have howns {addr : SocketAddr} {ref : Ref} {transport : Transport}
      (ho : Owns n.last n.made addr ref) (hlast : n.last addr = some transport) :
      n.made[ref]? = some transport := by
    obtain ⟨transport', hlast', hmade⟩ := ho
    rw [hlast] at hlast'
    rwa [← Option.some.inj hlast'] at hmade
  cases e with
  | advance i env =>
    intro ref href transport htr
    have hor : n.origins[i]? = some (some transport) := Option.join_eq_some_iff.mp htr
    unfold Net.handles at href
    split at href
    · rename_i ht
      obtain rfl := Option.some.inj href
      exact howns (h.carried _ _ ht) (h.origin _ _ _ ht hor)
    · rename_i addr ht
      exact howns (h.filed addr ref href) (h.origin _ _ _ ht hor)
    · cases href
  | packet | work | ended | reap | forward | tick => trivial

lemma Separate.heard (h : Separate n) {transport : Transport}
    (hu : ∀ transport', n.last (transport.addr peer) = some transport' →
      transport' = transport ∨ n.Vacant (transport.addr peer)) :
    Separate { n with last := Function.update n.last (transport.addr peer) (some transport) } := by
  -- what is known of an address stays true, unless the address is vacant
  have hlast {addr : SocketAddr} (hbusy : addr = transport.addr peer → ¬ n.Vacant addr)
      {transport' : Transport} (h : n.last addr = some transport') :
      Function.update n.last (transport.addr peer) (some transport) addr = some transport' := by
    by_cases ha : addr = transport.addr peer
    · subst ha
      rcases hu transport' h with rfl | hv
      · exact Function.update_self ..
      · exact absurd hv (hbusy rfl)
    · rw [Function.update_of_ne ha]
      exact h
  have hbusy {i : ℕ} {t : Task} (ht : n.server.tasks[i]? = some (some t)) : ¬ n.Vacant t.addr := by
    intro hv
    simpa using hv.2 _ (List.mem_of_getElem? ht)
  refine ⟨h.origins_length, h.made_length, fun addr ref hs => ?_, fun i t tr ht hor => ?_,
    fun i t ht => ?_⟩
  · obtain ⟨transport', hl, hm⟩ := h.filed addr ref hs
    have hfiled : ¬ n.Vacant addr := fun hv => by
      rw [hv.1] at hs
      cases hs
    exact ⟨transport', hlast (fun _ => hfiled) hl, hm⟩
  · exact hlast (fun _ => hbusy ht) (h.origin i t tr ht hor)
  · have hc := h.carried i t ht
    have hb := hbusy ht
    obtain ⟨addr, stage⟩ := t
    cases stage with
    | arrived | create => exact hlast (fun _ => hb) hc
    | locked =>
      obtain ⟨transport', hl, hm⟩ := hc
      exact ⟨transport', hlast (fun _ => hb) hl, hm⟩
    | ops =>
      intro hmem
      obtain ⟨transport', hl, hm⟩ := hc hmem
      exact ⟨transport', hlast (fun _ => hb) hl, hm⟩
    | lookup | visit | reap | closing | teardown => trivial

lemma Separate.spawn (h : Separate n) (addr : SocketAddr) (stage : Stage)
    (origin : Option Transport) (ho : ∀ transport, origin = some transport →
      n.last addr = some transport) (hc : Task.Carries n.last n.made ⟨addr, stage⟩) :
    Separate { n with server := n.server.spawn addr stage, origins := n.origins ++ [origin] } := by
  refine ⟨?_, h.made_length, h.filed, fun i t transport ht hor => ?_, fun i t ht => ?_⟩
  · simp [Server.spawn, h.origins_length]
  · rcases spawn_cases ht with ⟨rfl, rfl⟩ | ht
    · rw [← h.origins_length] at hor
      exact ho transport (by simpa using hor)
    · rw [List.getElem?_append_left] at hor
      · exact h.origin i t transport ht hor
      · rw [h.origins_length]
        exact (List.getElem?_eq_some_iff.mp ht).1
  · rcases spawn_cases ht with ⟨-, rfl⟩ | ht
    · exact hc
    · exact h.carried i t ht

lemma Separate.moved (h : Separate n) {i : ℕ} {t : Task} {s' : Server Conn}
    {stage : Option Stage} {more : List Transport} (hi : n.server.tasks[i]? = some (some t))
    (htasks : s'.tasks = n.server.tasks.set i (stage.map (⟨t.addr, ·⟩)))
    (hmade : (n.made ++ more).length = s'.heap.length)
    (hfiled : ∀ addr ref, s'.sessions addr = some ref →
      n.server.sessions addr = some ref ∨ Owns n.last n.made addr ref)
    (hc : ∀ st, stage = some st → Task.Carries n.last (n.made ++ more) ⟨t.addr, st⟩) :
    Separate { n with server := s', made := n.made ++ more } := by
  refine ⟨?_, hmade, fun addr ref hs => ?_, fun j t' transport ht hor => ?_, fun j t' ht => ?_⟩
  · rw [h.origins_length, htasks, List.length_set]
  · rcases hfiled addr ref hs with hs | ho
    · exact (h.filed addr ref hs).made_append more
    · exact ho.made_append more
  · rcases task_cases htasks ht with ⟨rfl, haddr, -⟩ | ⟨-, ht⟩
    · rw [haddr]
      exact h.origin j t transport hi hor
    · exact h.origin j t' transport ht hor
  · rcases task_cases htasks ht with ⟨-, haddr, hst⟩ | ⟨-, ht⟩
    · have hcarries := hc t'.stage hst
      rwa [← haddr] at hcarries
    · exact (h.carried j t' ht).made_append more

/-! ### The steps of the tasks -/

lemma makes_of_length_eq {s s' : Server Conn} {i : ℕ} (h : s'.heap.length = s.heap.length) :
    s.makes s' i = [] := by
  unfold Server.makes
  split
  · rw [if_neg (by omega)]
  · rfl

lemma Separate.still (h : Separate n) {i : ℕ} {t : Task} {s' : Server Conn}
    {stage : Option Stage} (hi : n.server.tasks[i]? = some (some t))
    (htasks : s'.tasks = n.server.tasks.set i (stage.map (⟨t.addr, ·⟩)))
    (hheap : s'.heap.length = n.server.heap.length)
    (hfiled : ∀ addr ref, s'.sessions addr = some ref →
      n.server.sessions addr = some ref ∨ Owns n.last n.made addr ref)
    (hc : ∀ st, stage = some st → Task.Carries n.last n.made ⟨t.addr, st⟩) :
    Separate { n with server := s', made := n.made ++ n.server.makes s' i } := by
  refine h.moved hi htasks ?_ hfiled ?_
  · rw [makes_of_length_eq hheap, List.append_nil, hheap, h.made_length]
  · rw [makes_of_length_eq hheap, List.append_nil]
    exact hc

lemma filed_run {op : MapOp} {addr addr' : SocketAddr} {ref ref' : Ref} {s : Server Conn}
    (h : (op.run addr ref s).sessions addr' = some ref') :
    s.sessions addr' = some ref' ∨ (op = .insertSession ∧ addr' = addr ∧ ref' = ref) := by
  cases op with
  | insertSession =>
    by_cases ha : addr' = addr
    · subst ha
      have hr : some ref = some ref' := by simpa [MapOp.run] using h
      exact .inr ⟨rfl, rfl, (Option.some.inj hr).symm⟩
    · left
      simpa [MapOp.run, Function.update_of_ne ha] using h
  | removeSession =>
    by_cases ha : addr' = addr
    · subst ha
      simp [MapOp.run] at h
    · left
      simpa [MapOp.run, Function.update_of_ne ha] using h
  | insertPeer | insertData | removeRoute | removeRouteV6 | removePeer | removeData => exact .inl h

lemma Separate.acts (h : Separate n) {i : ℕ} {t : Task} {s' : Server Conn}
    {stage : Option Stage} (hi : n.server.tasks[i]? = some (some t))
    (ha : Acts n.server t s' stage) :
    Separate { n with
      server := { s' with tasks := n.server.tasks.set i (stage.map (⟨t.addr, ·⟩)) },
      made := n.made ++ n.server.makes
        { s' with tasks := n.server.tasks.set i (stage.map (⟨t.addr, ·⟩)) } i } := by
  have hcarried := h.carried i t hi
  obtain ⟨addr, st⟩ := t
  cases ha with
  | unknown ht =>
    cases ht
    refine h.still hi rfl rfl (fun _ _ => .inl) fun x hx => ?_
    cases hx
    exact hcarried
  | known | visited =>
    refine h.still hi rfl rfl (fun _ _ => .inl) fun x hx => ?_
    cases hx
    trivial
  | notCreated | missing | spared | done | lost =>
    exact h.still hi rfl rfl (fun _ _ => .inl) fun _ hx => by cases hx
  | @created ctrl replayPid transport ht next o hh ho =>
    cases ht
    have hmakes (s' : Server Conn) (hs' : s'.heap = n.server.heap ++ [o]) :
        n.server.makes s' i = [transport] := by
      simp [Server.makes, hi, hs']
    rw [hmakes _ rfl]
    refine h.moved hi rfl (by simp [h.made_length]) (fun _ _ => .inl) fun x hx => ?_
    cases hx
    exact fun _ => ⟨transport, hcarried, by simp [h.made_length.symm]⟩
  | found ht ref hs =>
    refine h.still hi rfl rfl (fun _ _ => .inl) fun x hx => ?_
    cases hx
    exact h.filed addr ref hs
  | handled =>
    exact h.still hi rfl (List.length_set ..) (fun _ _ => .inl) fun _ hx => by cases hx
  | reaped ht o =>
    refine h.still hi rfl rfl (fun _ _ => .inl) fun x hx => ?_
    cases hx
    intro hmem
    rcases List.mem_cons.mp hmem with h | h
    · cases h
    · exact absurd rfl (mem_removeOps h).2.1
  | closed ht ref hs =>
    refine h.still hi rfl rfl (fun addr' ref' hs' => .inl ?_) fun x hx => ?_
    · by_cases hne : addr' = addr
      · subst hne
        simp at hs'
      · simpa [Function.update_of_ne hne] using hs'
    · cases hx
      trivial
  | torn ht o =>
    refine h.still hi rfl rfl (fun _ _ => .inl) fun x hx => ?_
    cases hx
    exact fun hmem => absurd rfl (mem_removeOps hmem).2.1
  | @op ref op todo ht =>
    cases ht
    refine h.still hi rfl (congrArg List.length (op.heap_run addr ref n.server))
      (fun addr' ref' hs' => ?_) fun x hx => ?_
    · rcases filed_run hs' with hs | ⟨rfl, rfl, rfl⟩
      · exact .inl hs
      · exact .inr (hcarried List.mem_cons_self)
    · cases hx
      exact fun hmem => hcarried (List.mem_cons_of_mem _ hmem)

/-! ### The events of the network -/

lemma Separate.congr (h : Separate n) {m : Net Conn} (htasks : m.server.tasks = n.server.tasks)
    (hsessions : m.server.sessions = n.server.sessions)
    (hheap : m.server.heap.length = n.server.heap.length) (horigins : m.origins = n.origins)
    (hmade : m.made = n.made) (hlast : m.last = n.last) : Separate m := by
  refine ⟨?origins, ?made, ?filed, ?origin, ?carried⟩
  case origins =>
    rw [horigins, htasks, h.origins_length]
  case made =>
    rw [hmade, hheap, h.made_length]
  case filed =>
    rw [hsessions, hlast, hmade]
    exact h.filed
  case origin =>
    rw [htasks, horigins, hlast]
    exact h.origin
  case carried =>
    rw [htasks, hlast, hmade]
    exact h.carried

lemma underLock_frame (s : Server Conn) (addr : SocketAddr) (ref : Ref) (env : Env Conn)
    (v : Event Conn) :
    (underLock S s addr ref env v).tasks = s.tasks ∧
      (underLock S s addr ref env v).sessions = s.sessions ∧
      (underLock S s addr ref env v).heap.length = s.heap.length := by
  rcases hr : s.heap[ref]? with _ | o
  · rw [underLock_of_none hr]
    exact ⟨rfl, rfl, rfl⟩
  · rw [underLock_of_some hr]
    exact ⟨rfl, rfl, List.length_set ..⟩

lemma receive_toControl {transport : Transport} {pkt : Bytes} {v : ServerEvent Conn}
    (h : (receive S peer transport pkt).findSome? Call.toControl = some v) :
    ∃ ctrl replayPid, v = .control (transport.addr peer) ctrl replayPid transport := by
  rcases receive_cases S peer transport pkt with hr | ⟨wire, hr⟩ |
    ⟨wire, inner, replayPid, -, hr⟩ <;> rw [hr] at h
  · cases h
  · cases h
  · rw [List.findSome?_singleton, Call.toControl] at h
    split at h
    · cases h
    · exact ⟨_, replayPid, (Option.some.inj h).symm⟩

lemma Separate.step (h : Separate n) (hu : Undisputed S peer n e) :
    Separate (netStep S peer n e) := by
  -- the last transport heard at an address is that of every task there
  have hheard {transport : Transport} (harr : e.arrival S peer = some transport) :
      Separate { n with
        last := Function.update n.last (transport.addr peer) (some transport) } := by
    refine h.heard fun transport' hl => ?_
    unfold Undisputed at hu
    rw [harr] at hu
    dsimp only at hu
    rwa [hl] at hu
  cases e with
  | packet tag transport pkt =>
    rcases hv : (receive S peer transport pkt).findSome? (@Call.toControl Conn) with _ | v
    · refine h.congr ?_ ?_ ?_ ?_ rfl ?_ <;>
        simp only [netStep, Net.nextServer, Net.event, Net.nextOrigins, Net.nextLast,
          NetEvent.arrival, hv, Option.map_none]
    · obtain ⟨ctrl, replayPid, rfl⟩ := receive_toControl hv
      have harr : (NetEvent.packet tag transport pkt : NetEvent Conn).arrival S peer =
          some transport := by
        simp only [NetEvent.arrival, hv, Option.map_some]
      have hnext := (hheard harr).spawn (transport.addr peer) (.arrived ctrl replayPid transport)
        (some transport) (fun tr htr => by cases htr; exact Function.update_self ..)
        (Function.update_self ..)
      refine hnext.congr ?_ ?_ ?_ ?_ rfl ?_ <;>
        simp only [netStep, Net.nextServer, Net.event, Net.nextOrigins, Net.nextLast, harr, hv,
          serve]
  | ended stream =>
    have harr : (NetEvent.ended stream : NetEvent Conn).arrival S peer = some (.tcp stream) := rfl
    exact ((hheard harr).spawn (peer stream) .closing (some (.tcp stream))
      (fun tr htr => by cases htr; exact Function.update_self ..) trivial).congr
      rfl rfl rfl rfl rfl rfl
  | reap addr =>
    exact (h.spawn addr .visit none (fun _ hor => by cases hor) trivial).congr
      rfl rfl rfl rfl rfl rfl
  | advance i env =>
    rcases hi : n.server.tasks[i]? with _ | _ | t
    · refine h.congr ?_ ?_ ?_ rfl ?_ rfl <;>
        simp [netStep, Net.nextServer, Net.event, Net.nextMade, serve, Server.makes, hi]
    · refine h.congr ?_ ?_ ?_ rfl ?_ rfl <;>
        simp [netStep, Net.nextServer, Net.event, Net.nextMade, serve, Server.makes, hi]
    · refine (h.acts hi (next_acts (S := S) env n.server t)).congr ?_ ?_ ?_ rfl ?_ rfl <;>
        simp only [netStep, Net.nextServer, Net.event, Net.nextMade, serve, hi]
  | work tag env =>
    rcases hf : n.queue.find? (·.tag = tag) with _ | p
    · refine h.congr ?_ ?_ ?_ rfl rfl rfl <;>
        simp only [netStep, Net.nextServer, Net.event, hf, Option.map_none]
    · obtain ⟨htasks, hsessions, hheap⟩ :=
        underLock_frame (S := S) n.server p.addr p.ref env (.data env p.pkt)
      refine h.congr ?_ ?_ ?_ rfl rfl rfl <;>
        simpa only [netStep, Net.nextServer, Net.event, hf, Option.map_some, serve]
  | forward env ipPkt =>
    rcases ht : n.server.forwardTarget ipPkt with _ | ⟨addr, ref⟩
    · refine h.congr ?_ ?_ ?_ rfl rfl rfl <;>
        simp only [netStep, Net.nextServer, Net.event, serve, ht]
    · obtain ⟨htasks, hsessions, hheap⟩ :=
        underLock_frame (S := S) n.server addr ref env (.tun env ipPkt)
      refine h.congr ?_ ?_ ?_ rfl rfl rfl <;>
        simpa only [netStep, Net.nextServer, Net.event, serve, ht]
  | tick addr ref env v =>
    obtain ⟨htasks, hsessions, hheap⟩ := underLock_frame (S := S) n.server addr ref env v
    have hserver : (netStep S peer n (.tick addr ref env v)).server = n.server ∨
        (netStep S peer n (.tick addr ref env v)).server = underLock S n.server addr ref env v := by
      by_cases hd : v.isData <;> by_cases hv : v.isVisit <;>
        simp [netStep, Net.nextServer, Net.event, serve, hd, hv]
    rcases hserver with hs | hs
    · exact h.congr (by rw [hs]) (by rw [hs]) (by rw [hs]) rfl rfl rfl
    · exact h.congr (by rw [hs, htasks]) (by rw [hs, hsessions]) (by rw [hs, hheap]) rfl rfl rfl

end Separate

/-- **Transports do not meet** where every address is left by one of them before another one
uses it: control packets are handled against sessions of their own transport, and a stream that
ends takes only a session of its own with it. -/
theorem transports_apart (S : VpnServer Conn) (peer : ℕ → SocketAddr) (p : Pools)
    (es : List (NetEvent Conn)) (hu : AllMeet (netStep S peer) (Undisputed S peer) (Net.new p) es) :
    ∀ x ∈ trace (netStep S peer) (Net.new p) es, OwnTransport x.1 x.2 := by
  intro x hx
  have hstep (n : Net Conn) (e : NetEvent Conn) (h : Separate n) (hu : Undisputed S peer n e) :
      Separate (netStep S peer n e) := h.step hu
  exact (trace_keeps hstep (separate_new p) hu x hx).1.ownTransport x.2

def netConnecting (transport : Transport) (i : ℕ) : List (NetEvent Plain) :=
  .packet i transport clientReset.encode :: List.replicate 6 (.advance i (plainEnv 1))

def netEnding (stream i : ℕ) : List (NetEvent Plain) :=
  .ended stream :: List.replicate 5 (.advance i (plainEnv 1))

/-- A UDP client, and two TCP streams that use another address one after the other. -/
theorem transports_apart_inTurn :
    let es := netConnecting (.udp plainAddr) 0 ++ netConnecting (.tcp 0) 1 ++ netEnding 0 2 ++
      netConnecting (.tcp 1) 3 ++ netEnding 1 4
    (run (netStep plainServer fun _ => otherAddr) (Net.new plainPools) es).made =
        [.udp plainAddr, .tcp 0, .tcp 1] ∧
      ∀ x ∈ trace (netStep plainServer fun _ => otherAddr) (Net.new plainPools) es,
        OwnTransport x.1 x.2 :=
  ⟨by decide +kernel,
    transports_apart plainServer (fun _ => otherAddr) plainPools _ (by decide +kernel)⟩

/-- A TCP stream from the address of a UDP client: its packets are handled against the session
of the client, and its end removes that session. -/
theorem transports_meet :
    let net := netStep plainServer fun _ => plainAddr
    let n := run net (Net.new plainPools) (netConnecting (.udp plainAddr) 0)
    let pushing := run net n
      [.packet 1 (.tcp 0) clientPush.encode, .advance 1 (plainEnv 1), .advance 1 (plainEnv 1)]
    let ending := run net n [.ended 0]
    let next : NetEvent Plain := .advance 1 (plainEnv 1)
    n.server.sessions plainAddr = some 0 ∧ n.made = [.udp plainAddr] ∧
      (¬ OwnTransport pushing next ∧
        (net pushing next).server.heap.map (·.sess.state) = [.established]) ∧
      ¬ OwnTransport ending next ∧ (net ending next).server.sessions plainAddr = none := by
  decide +kernel

end Javs
