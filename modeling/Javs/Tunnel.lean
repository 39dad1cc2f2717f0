import Javs.Network
import Javs.DataRoundTrip

/-!
From the network to the TUN device.

Every session has a worker of its own, which takes up the session's data packets one after the
other. What the workers decrypt goes into one channel, and a single writer carries it to the
device: it drops what is not an IP packet, and ends for good when the device refuses a packet.
The workers see from then on a closed channel.

The workers here are those of the network, except that each of them takes its packets in the
order of their arrival; packets are numbered as they arrive.
-/

namespace Javs

open Lib

variable {Conn : Type}

/-! ### Workers, channel and writer -/

/-- A plaintext for the TUN, with the packet it came in. -/
structure Passage where
  tag : ℕ
  ref : Ref
  wire : Bytes
  plaintext : Bytes
  deriving DecidableEq

structure Tunnel (Conn : Type) where
  net : Net Conn
  /-- The packets that have arrived so far. -/
  arrived : ℕ := 0
  channel : List Passage := []
  /-- The writer is at work, and the channel is open. -/
  writing : Bool := true
  /-- What has been written to the device. -/
  device : List Passage := []

def Tunnel.new (p : Pools) : Tunnel Conn := { net := .new p }

inductive TunnelEvent (Conn : Type)
  | packet (transport : Transport) (pkt : Bytes)
  /-- The worker of a session takes up its next packet. -/
  | work (ref : Ref) (env : Env Conn)
  /-- The writer takes up its next packet; `accepted` is what the device says to it. -/
  | write (accepted : Bool)
  | other (e : NetEvent Conn)

def NetEvent.isParcel : NetEvent Conn → Bool
  | .packet .. | .work .. => true
  | _ => false

def Bytes.isIp (pkt : Bytes) : Bool :=
  match pkt with
  | [] => false
  | b :: _ => b >>> 4 = 4 || b >>> 4 = 6

def Passage.isIp (x : Passage) : Bool := x.plaintext.isIp

def Tunnel.write (t : Tunnel Conn) (accepted : Bool) : Tunnel Conn :=
  match t.writing, t.channel with
  | true, x :: rest =>
    if !x.isIp then { t with channel := rest }
    else if accepted then { t with channel := rest, device := t.device ++ [x] }
    else { t with channel := [], writing := false }
  | _, _ => t

/-- The packet that the worker of a session takes up next. -/
def Tunnel.nextParcel (t : Tunnel Conn) (ref : Ref) : Option Parcel :=
  t.net.queue.find? (·.ref = ref)

def Tunnel.working (t : Tunnel Conn) (q : Parcel) (env : Env Conn) : NetEvent Conn :=
  .work q.tag { env with tunOpen := t.writing }

def Output.plaintext? : Output → Option Bytes
  | .tun plaintext => some plaintext
  | .send .. => none

variable (S : VpnServer Conn) (peer : ℕ → SocketAddr)

/-- What an event hands to the writer. -/
def Tunnel.passages (t : Tunnel Conn) : TunnelEvent Conn → List Passage
  | .work ref env =>
    match t.nextParcel ref with
    | none => []
    | some q => ((t.net.outputs S peer (t.working q env)).filterMap Output.plaintext?).map
        (⟨q.tag, ref, q.pkt, ·⟩)
  | _ => []

def tunnelStep (t : Tunnel Conn) (e : TunnelEvent Conn) : Tunnel Conn :=
  match e with
  | .packet transport pkt =>
    { t with net := netStep S peer t.net (.packet t.arrived transport pkt)
             arrived := t.arrived + 1 }
  | .work ref env =>
    match t.nextParcel ref with
    | none => t
    | some q =>
      { t with net := netStep S peer t.net (t.working q env)
               channel := t.channel ++ t.passages S peer e }
  | .write accepted => t.write accepted
  | .other v => if v.isParcel then t else { t with net := netStep S peer t.net v }

def Tunnel.netEvent (t : Tunnel Conn) : TunnelEvent Conn → Option (NetEvent Conn)
  | .packet transport pkt => some (.packet t.arrived transport pkt)
  | .work ref env => (t.nextParcel ref).map fun q => t.working q env
  | .write _ => none
  | .other v => if v.isParcel then none else some v

def Tunnel.outputs (t : Tunnel Conn) (e : TunnelEvent Conn) : List Output :=
  (t.netEvent e).toList.flatMap (t.net.outputs S peer)

section Steps

variable {S peer} {t : Tunnel Conn}

inductive Writes (t : Tunnel Conn) : Tunnel Conn → Prop
  | idle : Writes t t
  | dropped {x rest} (hc : t.channel = x :: rest) (hw : t.writing = true) (hx : x.isIp = false) :
      Writes t { t with channel := rest }
  | written {x rest} (hc : t.channel = x :: rest) (hw : t.writing = true) (hx : x.isIp = true) :
      Writes t { t with channel := rest, device := t.device ++ [x] }
  | failed {x rest} (hc : t.channel = x :: rest) (hw : t.writing = true) :
      Writes t { t with channel := [], writing := false }

lemma write_writes (t : Tunnel Conn) (accepted : Bool) : Writes t (t.write accepted) := by
  unfold Tunnel.write
  split
  · rename_i x rest hw hc
    rcases hx : x.isIp with _ | _
    · exact .dropped hc hw hx
    · cases accepted
      · exact .failed hc hw
      · exact .written hc hw hx
  · exact .idle

lemma net_tunnelStep (t : Tunnel Conn) (e : TunnelEvent Conn) :
    (tunnelStep S peer t e).net = run (netStep S peer) t.net (t.netEvent e).toList := by
  cases e with
  | packet transport pkt => rfl
  | work ref env =>
    simp only [tunnelStep, Tunnel.netEvent]
    rcases t.nextParcel ref with _ | q <;> rfl
  | write accepted =>
    show (t.write accepted).net = t.net
    have h := write_writes t accepted
    generalize t.write accepted = t' at h ⊢
    cases h <;> rfl
  | other v =>
    simp only [tunnelStep, Tunnel.netEvent]
    split <;> rfl

/-- **The tunnel refines the network**: the workers' order is one of the orders in which the
network's workers can take up their packets. -/
theorem net_run_tunnel (p : Pools) (es : List (TunnelEvent Conn)) :
    ∃ vs, (run (tunnelStep S peer) (Tunnel.new p) es).net =
      run (netStep S peer) (Net.new p) vs := by
  have hstep (t : Tunnel Conn) (e : TunnelEvent Conn)
      (h : ∃ vs, t.net = run (netStep S peer) (Net.new p) vs) :
      ∃ vs, (tunnelStep S peer t e).net = run (netStep S peer) (Net.new p) vs := by
    obtain ⟨vs, hvs⟩ := h
    refine ⟨vs ++ (t.netEvent e).toList, ?_⟩
    rw [net_tunnelStep, hvs, run_append]
  exact run_invariant
    (I := fun t : Tunnel Conn => ∃ vs, t.net = run (netStep S peer) (Net.new p) vs)
    hstep ⟨[], rfl⟩

/-! ### Packets in their order -/

/-- The numbers of the packets, on their way. -/
structure InLine (t : Tunnel Conn) : Prop where
  queued : t.net.queue.Pairwise fun q q' => q.tag < q'.tag
  arrived : ∀ q ∈ t.net.queue, q.tag < t.arrived
  passed : (t.device ++ t.channel).Pairwise fun x y => x.ref = y.ref → x.tag < y.tag
  /-- What a session's worker has handed on came before what it has still to take up. -/
  ahead : ∀ x ∈ t.device ++ t.channel, ∀ q ∈ t.net.queue, x.ref = q.ref → x.tag < q.tag
  counted : ∀ x ∈ t.device ++ t.channel, x.tag < t.arrived

variable (S peer) in
lemma parcels_cases (n : Net Conn) (tag : ℕ) (transport : Transport) (pkt : Bytes) :
    (netStep S peer n (.packet tag transport pkt)).queue = n.queue ∨
      ∃ wire ref, Call.routeData wire ∈ receive S peer transport pkt ∧
        n.server.routeData wire = some ref ∧
        (netStep S peer n (.packet tag transport pkt)).queue =
          n.queue ++ [⟨tag, transport.addr peer, ref, wire⟩] := by
  show n.queue ++ _ = _ ∨ ∃ wire ref, _ ∧ _ ∧ n.queue ++ _ = _
  rcases receive_cases S peer transport pkt with hcalls | ⟨wire, hcalls⟩ |
    ⟨_, _, _, -, hcalls⟩ <;> rw [hcalls]
  · exact .inl (List.append_nil _)
  · rcases hr : n.server.routeData wire with _ | ref
    · left
      simp [Call.toParcel, hr]
    · right
      refine ⟨wire, ref, List.mem_singleton_self _, hr, ?_⟩
      simp [Call.toParcel, hr]
  · exact .inl (List.append_nil _)

lemma nextParcel_eq_some {ref : Ref} {q : Parcel} (h : t.nextParcel ref = some q) :
    ∃ before after, t.net.queue = before ++ q :: after ∧ q.ref = ref ∧
      ∀ q' ∈ before, q'.ref ≠ ref := by
  obtain ⟨hq, before, after, heq, hbefore⟩ := List.find?_eq_some_iff_append.mp h
  refine ⟨before, after, heq, by simpa using hq, fun q' hq' => ?_⟩
  simpa using hbefore q' hq'

variable (S peer) in
lemma InLine.queue_work (h : InLine t) {before after : List Parcel} {q : Parcel}
    (heq : t.net.queue = before ++ q :: after) (env : Env Conn) :
    (netStep S peer t.net (t.working q env)).queue = before ++ after := by
  show t.net.queue.eraseP (·.tag = q.tag) = _
  have hsorted := h.queued
  rw [heq, List.pairwise_append] at hsorted
  have hbefore : ∀ q' ∈ before, ¬ decide (q'.tag = q.tag) = true := by
    intro q' hq'
    have hlt : q'.tag < q.tag := hsorted.2.2 q' hq' q List.mem_cons_self
    simpa using Nat.ne_of_lt hlt
  rw [heq, List.eraseP_append_right _ hbefore, List.eraseP_cons_of_pos (by simp)]

lemma InLine.find?_tag (h : InLine t) {before after : List Parcel} {q : Parcel}
    (heq : t.net.queue = before ++ q :: after) :
    t.net.queue.find? (·.tag = q.tag) = some q := by
  have hsorted := h.queued
  rw [heq, List.pairwise_append] at hsorted
  have hbefore : before.find? (·.tag = q.tag) = none := by
    rw [List.find?_eq_none]
    intro q' hq'
    have hlt : q'.tag < q.tag := hsorted.2.2 q' hq' q List.mem_cons_self
    simpa using Nat.ne_of_lt hlt
  rw [heq, List.find?_append, hbefore, List.find?_cons_of_pos (by simp)]
  rfl

variable (S) in
lemma outputs_data (addr : SocketAddr) {w : World Conn} (hw : w.log = []) (env : Env Conn)
    (pkt : Bytes) :
    (step S addr w (.data env pkt)).outputs = [] ∨
      ∃ dp i slot plaintext, Opens S { w with env } pkt dp i slot plaintext ∧
        env.tunOpen = true ∧ plaintext ≠ pingPayload ∧
        (step S addr w (.data env pkt)).outputs = [.tun plaintext] := by
  show (decryptAndForward S pkt { w with env }).2.outputs = [] ∨ _
  rcases decryptAndForward_cases (S := S) { w with env } pkt with
    ⟨e, he⟩ | ⟨dp, i, slot, plaintext, ho, -⟩
  · left
    rw [he]
    simp [World.outputs, hw]
  · have hstep : step S addr w (.data env pkt) = (decryptAndForward S pkt { w with env }).2 := rfl
    rw [hstep, decryptAndForward_opens ho]
    split
    · left
      simp [World.outputs, World.opened, hw]
    · rename_i hping
      split
      · rename_i htun
        exact .inr ⟨dp, i, slot, plaintext, ho, htun, hping, by
          simp [World.outputs, World.opened, hw]⟩
      · left
        simp [World.outputs, World.opened, hw]

def Effect.plaintext? : Effect → Option Bytes
  | .tun _ plaintext => some plaintext
  | _ => none

lemma plaintext?_of_move (e : Effect) (he : e.ofEvent = false) : e.plaintext? = none := by
  cases e <;> first | rfl | cases he

lemma plaintexts_outputs (w : World Conn) :
    w.outputs.filterMap Output.plaintext? = w.log.filterMap Effect.plaintext? := by
  rw [World.outputs, List.filterMap_filterMap]
  refine List.filterMap_congr fun e _ => ?_
  cases e <;> rfl

lemma plaintexts_step (addr : SocketAddr) {w : World Conn} (hw : w.log = []) {v : Event Conn}
    (hv : v.isData = false) : (step S addr w v).outputs.filterMap Output.plaintext? = [] := by
  obtain ⟨es, hown, hlog⟩ := (step_reacts S addr w v).own plaintext?_of_move
  have hack (ctrl : ControlPacket) : (ackOf ctrl).filterMap Effect.plaintext? = [] := by
    unfold ackOf
    split <;> rfl
  have hnone : es.filterMap Effect.plaintext? = [] := by
    cases hown with
    | fed =>
      rw [List.filterMap_append, hack]
      rfl
    | heard => exact hack _
    | refused | opened | forwarded => cases hv
    | rejected | idle | tun | ping => rfl
  rw [hw, hnone] at hlog
  exact (plaintexts_outputs _).trans hlog

lemma plaintexts_serve {s : Server Conn} {v : ServerEvent Conn}
    (hv : ∀ addr ref env e, v = .visit addr ref env e → e.isData = false) :
    (s.outputs S v).filterMap Output.plaintext? = [] := by
  unfold Server.outputs
  rcases s.opening v with _ | op
  · rcases hw : s.worksOn v with _ | ⟨addr, w, e⟩
    · rfl
    · obtain ⟨-, -, -, hlog⟩ := worksOn_sess hw
      refine plaintexts_step addr hlog ?_
      cases v with
      | control | reap | close => cases hw
      | advance | forward =>
        simp only [Server.worksOn] at hw
        split at hw
        · obtain ⟨-, -, -, rfl⟩ := locked_eq hw
          rfl
        · cases hw
      | visit =>
        simp only [Server.worksOn] at hw
        split at hw
        · obtain ⟨-, -, -, rfl⟩ := locked_eq hw
          exact hv _ _ _ _ rfl
        · cases hw
  · exact (plaintexts_outputs _).trans (filterMap_started plaintext?_of_move op)

lemma plaintexts_net {n : Net Conn} {v : NetEvent Conn} (hv : ∀ tag env, v ≠ .work tag env) :
    (n.outputs S peer v).filterMap Output.plaintext? = [] := by
  unfold Net.outputs
  split
  · rfl
  · rename_i e he
    refine plaintexts_serve fun addr ref env e' heq => ?_
    subst heq
    cases v with
    | packet tag transport pkt =>
      obtain ⟨c, -, hc⟩ := List.exists_of_findSome?_eq_some he
      cases c with
      | routeData => cases hc
      | handleControlPacket =>
        simp only [Call.toControl] at hc
        split at hc <;> cases hc
    | work tag env => exact absurd rfl (hv tag env)
    | ended | reap | advance | forward => cases he
    | tick =>
      simp only [Net.event] at he
      split at he
      · cases he
      · rename_i hdata
        cases he
        simpa using hdata

lemma plaintexts_tunnel (t : Tunnel Conn) (e : TunnelEvent Conn) :
    (t.outputs S peer e).filterMap Output.plaintext? =
      (t.passages S peer e).map Passage.plaintext := by
  cases e with
  | packet transport pkt =>
    show ([_].flatMap _).filterMap _ = []
    rw [List.flatMap_singleton]
    exact plaintexts_net nofun
  | work ref env =>
    simp only [Tunnel.outputs, Tunnel.netEvent, Tunnel.passages]
    rcases t.nextParcel ref with _ | q
    · rfl
    · simp [Function.comp_def]
  | write => rfl
  | other v =>
    simp only [Tunnel.outputs, Tunnel.netEvent]
    split
    · rfl
    · rename_i hv
      show ([v].flatMap _).filterMap _ = []
      rw [List.flatMap_singleton]
      exact plaintexts_net fun tag env h => hv (by rw [h]; rfl)

/-- A packet that a worker hands on opened under a slot of its session, and is no ping. -/
structure Passes (S : VpnServer Conn) (t : Tunnel Conn) (env : Env Conn) (q : Parcel)
    (plaintext : Bytes) : Prop where
  writing : t.writing = true
  opens : ∃ w dp i slot, t.net.server.locked q.ref { env with tunOpen := t.writing } = some w ∧
    Opens S w q.pkt dp i slot plaintext
  noPing : plaintext ≠ pingPayload

variable (S peer) in
lemma InLine.passages_cases (h : InLine t) {ref : Ref} {q : Parcel}
    (hq : t.nextParcel ref = some q) (env : Env Conn) :
    t.passages S peer (.work ref env) = [] ∨
      ∃ plaintext, Passes S t env q plaintext ∧
        t.passages S peer (.work ref env) = [⟨q.tag, ref, q.pkt, plaintext⟩] := by
  obtain ⟨before, after, heq, href, -⟩ := nextParcel_eq_some hq
  -- the tags in the queue are distinct, so that the call that works is the one picked
  have hevent : t.net.event S peer (t.working q env) =
      some (.visit q.addr q.ref { env with tunOpen := t.writing }
        (.data { env with tunOpen := t.writing } q.pkt)) := by
    simp only [Net.event, Tunnel.working, h.find?_tag heq, Option.map_some]
  simp only [Tunnel.passages, hq, Net.outputs, hevent, Server.outputs, Server.opening,
    Server.worksOn, Event.isVisit, if_true]
  rcases hl : t.net.server.locked q.ref { env with tunOpen := t.writing } with _ | w
  · exact .inl rfl
  · have hw : w.log = [] := by
      obtain ⟨o, -, rfl⟩ := Option.map_eq_some_iff.mp hl
      rfl
    have henv : { w with env := { env with tunOpen := t.writing } } = w := by
      obtain ⟨o, -, rfl⟩ := Option.map_eq_some_iff.mp hl
      rfl
    simp only [Option.map_some]
    rcases outputs_data S q.addr hw { env with tunOpen := t.writing } q.pkt with
      hnone | ⟨dp, i, slot, plaintext, ho, htun, hping, hout⟩
    · left
      rw [hnone]
      rfl
    · right
      rw [henv] at ho
      refine ⟨plaintext, ⟨htun, ⟨w, dp, i, slot, hl, ho⟩, hping⟩, ?_⟩
      rw [hout]
      rfl

lemma InLine.sublist (h : InLine t) {t' : Tunnel Conn} (hqueue : t'.net.queue = t.net.queue)
    (harrived : t'.arrived = t.arrived)
    (hpassed : (t'.device ++ t'.channel).Sublist (t.device ++ t.channel)) : InLine t' where
  queued := hqueue ▸ h.queued
  arrived := by
    rw [hqueue, harrived]
    exact h.arrived
  passed := h.passed.sublist hpassed
  ahead := by
    rw [hqueue]
    exact fun x hx => h.ahead x (hpassed.subset hx)
  counted := by
    rw [harrived]
    exact fun x hx => h.counted x (hpassed.subset hx)

lemma InLine.packet (h : InLine t) (transport : Transport) (pkt : Bytes) :
    InLine (tunnelStep S peer t (.packet transport pkt)) := by
  have hcount (x) (hx : x ∈ t.device ++ t.channel) : x.tag < t.arrived + 1 :=
    Nat.lt_succ_of_lt (h.counted x hx)
  have hold (q) (hq : q ∈ t.net.queue) : q.tag < t.arrived + 1 := Nat.lt_succ_of_lt (h.arrived q hq)
  rcases parcels_cases S peer t.net t.arrived transport pkt with
    hq | ⟨wire, ref, -, -, hq⟩
  · refine ⟨?_, ?_, h.passed, ?_, hcount⟩
    · exact hq ▸ h.queued
    · exact fun q hmem => hold q (hq ▸ hmem)
    · exact fun x hx q hmem => h.ahead x hx q (hq ▸ hmem)
  · -- the new parcel has the highest number of all
    refine ⟨?_, ?_, h.passed, ?_, hcount⟩
    · show List.Pairwise _ (netStep S peer t.net (.packet t.arrived transport pkt)).queue
      rw [hq, List.pairwise_append]
      refine ⟨h.queued, List.pairwise_singleton _ _, fun q hmem q' hmem' => ?_⟩
      rw [List.mem_singleton.mp hmem']
      exact h.arrived q hmem
    · intro q hmem
      rcases List.mem_append.mp (hq ▸ hmem) with hmem | hmem
      · exact hold q hmem
      · rw [List.mem_singleton.mp hmem]
        exact Nat.lt_succ_self t.arrived
    · intro x hx q hmem href
      rcases List.mem_append.mp (hq ▸ hmem) with hmem | hmem
      · exact h.ahead x hx q hmem href
      · rw [List.mem_singleton.mp hmem]
        exact h.counted x hx

lemma InLine.work (h : InLine t) (ref : Ref) (env : Env Conn) :
    InLine (tunnelStep S peer t (.work ref env)) := by
  rcases hq : t.nextParcel ref with _ | q
  · simpa only [tunnelStep, hq] using h
  obtain ⟨before, after, heq, href, hbefore⟩ := nextParcel_eq_some hq
  have hqueue := h.queue_work S peer heq env
  have hsub : (before ++ after).Sublist t.net.queue := by
    rw [heq]
    exact (List.sublist_cons_self q after).append_left before
  have hmem : q ∈ t.net.queue := by simp [heq]
  have htaken : InLine { t with net := netStep S peer t.net (t.working q env) } := by
    refine ⟨?_, ?_, h.passed, ?_, h.counted⟩
    · exact hqueue ▸ h.queued.sublist hsub
    · exact fun q' hq' => h.arrived q' (hsub.subset (hqueue ▸ hq'))
    · exact fun x hx q' hq' => h.ahead x hx q' (hsub.subset (hqueue ▸ hq'))
  rcases h.passages_cases S peer hq env with hnone | ⟨plaintext, -, hone⟩
  · simpa only [tunnelStep, hq, hnone, List.append_nil] using htaken
  · simp only [tunnelStep, hq, hone]
    -- the session's parcels that are left came after `q`
    have hlast (q' : Parcel) (hq' : q' ∈ before ++ after) (hr : ref = q'.ref) : q.tag < q'.tag := by
      rcases List.mem_append.mp hq' with hq' | hq'
      · exact absurd hr.symm (hbefore q' hq')
      · have hsorted := h.queued
        rw [heq, List.pairwise_append, List.pairwise_cons] at hsorted
        exact hsorted.2.1.1 q' hq'
    refine ⟨htaken.queued, htaken.arrived, ?_, ?_, ?_⟩
    · show List.Pairwise _ (t.device ++ (t.channel ++ _))
      rw [← List.append_assoc, List.pairwise_append]
      refine ⟨h.passed, List.pairwise_singleton _ _, fun x hx y hy hxy => ?_⟩
      rw [List.mem_singleton.mp hy] at hxy ⊢
      exact h.ahead x hx q hmem (hxy.trans href.symm)
    · intro x hx q' hq' hr
      rw [← List.append_assoc] at hx
      rcases List.mem_append.mp hx with hx | hx
      · exact htaken.ahead x hx q' hq' hr
      · rw [List.mem_singleton.mp hx] at hr ⊢
        exact hlast q' (hqueue ▸ hq') hr
    · intro x hx
      rw [← List.append_assoc] at hx
      rcases List.mem_append.mp hx with hx | hx
      · exact h.counted x hx
      · rw [List.mem_singleton.mp hx]
        exact h.arrived q hmem

lemma InLine.step (h : InLine t) (e : TunnelEvent Conn) : InLine (tunnelStep S peer t e) := by
  cases e with
  | packet transport pkt => exact h.packet transport pkt
  | work ref env => exact h.work ref env
  | write accepted =>
    show InLine (t.write accepted)
    have hw := write_writes t accepted
    generalize t.write accepted = t' at hw ⊢
    cases hw with
    | idle => exact h
    | dropped hc =>
      refine h.sublist rfl rfl ?_
      rw [hc]
      exact (List.sublist_cons_self _ _).append_left _
    | written hc =>
      refine h.sublist rfl rfl ?_
      rw [hc]
      simp
    | failed => exact h.sublist rfl rfl (by simp)
  | other v =>
    simp only [tunnelStep]
    split
    · exact h
    · rename_i hv
      refine h.sublist ?_ rfl (List.Sublist.refl _)
      cases v with
      | packet | work => exact absurd rfl hv
      | ended | reap | advance | forward | tick => rfl

lemma inLine_new (p : Pools) : InLine (Tunnel.new p : Tunnel Conn) where
  queued := List.Pairwise.nil
  arrived := fun _ h => (by cases h)
  passed := List.Pairwise.nil
  ahead := fun _ h => (by cases h)
  counted := fun _ h => (by cases h)

/-! ### The writer -/

/-- The writer has dealt with the first of the packets handed to it, and the others wait for
it, unless it has ended. -/
def Tunnel.Dealt (t : Tunnel Conn) (handed : List Passage) : Prop :=
  ∃ taken rest, handed = taken ++ rest ∧ t.device = taken.filter Passage.isIp ∧
    (t.writing = true → rest = t.channel)

lemma Tunnel.Dealt.step {handed : List Passage} (h : t.Dealt handed) (e : TunnelEvent Conn) :
    (tunnelStep S peer t e).Dealt (handed ++ t.passages S peer e) := by
  obtain ⟨taken, rest, hsplit, hdevice, hrest⟩ := h
  cases e with
  | packet => exact ⟨taken, rest, by simp [Tunnel.passages, hsplit], hdevice, hrest⟩
  | work ref env =>
    rcases hq : t.nextParcel ref with _ | q
    · simp only [tunnelStep, hq, Tunnel.passages, List.append_nil]
      exact ⟨taken, rest, hsplit, hdevice, hrest⟩
    · have hstep : tunnelStep S peer t (.work ref env) =
          { t with net := netStep S peer t.net (t.working q env)
                   channel := t.channel ++ t.passages S peer (.work ref env) } := by
        simp only [tunnelStep, hq]
      rw [hstep]
      refine ⟨taken, rest ++ t.passages S peer (.work ref env), ?_, hdevice, fun hw => ?_⟩
      · rw [hsplit, List.append_assoc]
      · rw [hrest hw]
  | write accepted =>
    show (t.write accepted).Dealt (handed ++ [])
    rw [List.append_nil]
    have hw := write_writes t accepted
    generalize t.write accepted = t' at hw ⊢
    cases hw with
    | idle => exact ⟨taken, rest, hsplit, hdevice, hrest⟩
    | @dropped x left hc hw hx =>
      refine ⟨taken ++ [x], left, ?_, ?_, fun _ => rfl⟩
      · rw [hsplit, hrest hw, hc, List.append_assoc]
        rfl
      · simp [hdevice, hx]
    | @written x left hc hw hx =>
      refine ⟨taken ++ [x], left, ?_, ?_, fun _ => rfl⟩
      · rw [hsplit, hrest hw, hc, List.append_assoc]
        rfl
      · simp [hdevice, hx]
    | failed => exact ⟨taken, rest, hsplit, hdevice, nofun⟩
  | other v =>
    simp only [tunnelStep, Tunnel.passages, List.append_nil]
    split <;> exact ⟨taken, rest, hsplit, hdevice, hrest⟩

lemma dealt_run {handed : List Passage} (h : t.Dealt handed) (es : List (TunnelEvent Conn)) :
    (run (tunnelStep S peer) t es).Dealt
      (handed ++ (trace (tunnelStep S peer) t es).flatMap fun x => x.1.passages S peer x.2) := by
  induction es generalizing t handed with
  | nil => simpa using h
  | cons e es ih =>
    rw [run_cons, trace_cons, List.flatMap_cons, ← List.append_assoc]
    exact ih (h.step e)

lemma Tunnel.Dealt.drain {handed : List Passage} (h : t.Dealt handed) (hw : t.writing = true) :
    (run (tunnelStep S peer) t (List.replicate t.channel.length (.write true))).device =
      handed.filter Passage.isIp := by
  obtain ⟨taken, rest, hsplit, hdevice, hrest⟩ := h
  subst hsplit
  rw [hrest hw, List.filter_append, ← hdevice]
  clear hdevice hrest
  generalize hc : t.channel = channel
  induction channel generalizing t with
  | nil => simp
  | cons x left ih =>
    rw [List.length_cons, List.replicate_succ, run_cons]
    have hstep : tunnelStep S peer t (.write true) =
        { t with channel := left, device := t.device ++ [x].filter Passage.isIp } := by
      simp only [tunnelStep, Tunnel.write, hw, hc]
      cases hx : x.isIp <;> simp [hx]
    rw [hstep]
    refine Eq.trans (ih ?_ ?_) ?_
    · exact hw
    · rfl
    show t.device ++ [x].filter Passage.isIp ++ left.filter Passage.isIp = _
    rw [List.append_assoc, ← List.filter_append, List.singleton_append]

variable (S peer) in
lemma ended_step (hw : t.writing = false) (e : TunnelEvent Conn) :
    (tunnelStep S peer t e).writing = false ∧ (tunnelStep S peer t e).device = t.device := by
  cases e with
  | packet => exact ⟨hw, rfl⟩
  | work ref env =>
    simp only [tunnelStep]
    split <;> exact ⟨hw, rfl⟩
  | write accepted => simp [tunnelStep, Tunnel.write, hw]
  | other v =>
    simp only [tunnelStep]
    split <;> exact ⟨hw, rfl⟩

lemma ended_run (hw : t.writing = false) (es : List (TunnelEvent Conn)) :
    (run (tunnelStep S peer) t es).device = t.device := by
  have hstep (t' : Tunnel Conn) (e : TunnelEvent Conn)
      (h : t'.writing = false ∧ t'.device = t.device) :
      (tunnelStep S peer t' e).writing = false ∧ (tunnelStep S peer t' e).device = t.device := by
    obtain ⟨hwriting, hdevice⟩ := ended_step S peer h.1 e
    exact ⟨hwriting, hdevice.trans h.2⟩
  exact (run_invariant
    (I := fun t' : Tunnel Conn => t'.writing = false ∧ t'.device = t.device) hstep ⟨hw, rfl⟩).2

/-! ### Where the packets come from -/

/-- The packet arrives, and is routed to its session. -/
def Brings (S : VpnServer Conn) (peer : ℕ → SocketAddr) (t : Tunnel Conn) (e : TunnelEvent Conn)
    (tag : ℕ) (ref : Ref) (wire : Bytes) : Prop :=
  ∃ transport pkt, e = .packet transport pkt ∧ t.arrived = tag ∧
    Call.routeData wire ∈ receive S peer transport pkt ∧ t.net.server.routeData wire = some ref

/-- The session's worker takes the packet up, and it opens under one of the session's slots. -/
def Reveals (S : VpnServer Conn) (t : Tunnel Conn) (e : TunnelEvent Conn) (x : Passage) : Prop :=
  ∃ env w dp i slot, e = .work x.ref env ∧
    t.net.server.locked x.ref { env with tunOpen := t.writing } = some w ∧
    Opens S w x.wire dp i slot x.plaintext

lemma queue_origin (t : Tunnel Conn) (e : TunnelEvent Conn) :
    ∀ q ∈ (tunnelStep S peer t e).net.queue,
      q ∈ t.net.queue ∨ Brings S peer t e q.tag q.ref q.pkt := by
  intro q hmem
  cases e with
  | packet transport pkt =>
    change q ∈ (netStep S peer t.net (.packet t.arrived transport pkt)).queue at hmem
    rcases parcels_cases S peer t.net t.arrived transport pkt with
      hq | ⟨wire, ref, hcall, hroute, hq⟩
    · exact .inl (hq ▸ hmem)
    · rw [hq] at hmem
      rcases List.mem_append.mp hmem with hmem | hmem
      · exact .inl hmem
      · rw [List.mem_singleton.mp hmem]
        exact .inr ⟨transport, pkt, rfl, rfl, hcall, hroute⟩
  | work ref env =>
    left
    rcases hq : t.nextParcel ref with _ | q'
    · simpa only [tunnelStep, hq] using hmem
    · simp only [tunnelStep, hq] at hmem
      exact (List.eraseP_sublist (l := t.net.queue)).subset hmem
  | write accepted =>
    left
    rwa [net_tunnelStep] at hmem
  | other v =>
    left
    simp only [tunnelStep] at hmem
    split at hmem
    · exact hmem
    · rename_i hv
      cases v with
      | packet | work => exact absurd rfl hv
      | ended | reap | advance | forward | tick => exact hmem

lemma InLine.passages_origin (h : InLine t) {e : TunnelEvent Conn} {x : Passage}
    (hx : x ∈ t.passages S peer e) :
    x.plaintext ≠ pingPayload ∧ Reveals S t e x ∧
      ∃ q ∈ t.net.queue, q.tag = x.tag ∧ q.ref = x.ref ∧ q.pkt = x.wire := by
  cases e with
  | packet | write | other => cases hx
  | work ref env =>
    rcases hq : t.nextParcel ref with _ | q
    · simp [Tunnel.passages, hq] at hx
    · rcases h.passages_cases S peer hq env with
        hnone | ⟨plaintext, ⟨-, ⟨w, dp, i, slot, hl, ho⟩, hping⟩, hone⟩
      · simp [hnone] at hx
      · rw [hone] at hx
        rw [List.mem_singleton.mp hx]
        obtain ⟨before, after, heq, rfl, -⟩ := nextParcel_eq_some hq
        exact ⟨hping, ⟨env, w, dp, i, slot, rfl, hl, ho⟩, q, by simp [heq], rfl, rfl, rfl⟩

end Steps

/-- **The device sees each session's packets in their order.** In every run, whatever the workers
and the writer do in between: the workers hand on all that the server has for the TUN, and what
has been written is the first part of that without what is not an IP packet, and if the writer
goes on, all of it gets written; of one session's packets, none is written twice and none before
an earlier one; each came in by a packet that was routed to its session, and opened there; no ping
is among them. After a packet that the device refused, nothing is written any more. -/
theorem device_in_order (p : Pools) (es : List (TunnelEvent Conn)) :
    let t := run (tunnelStep S peer) (Tunnel.new p) es
    let history := trace (tunnelStep S peer) (Tunnel.new p) es
    let handed := history.flatMap fun x => x.1.passages S peer x.2
    (history.flatMap fun x => (x.1.outputs S peer x.2).filterMap Output.plaintext?) =
        handed.map Passage.plaintext ∧
    t.Dealt handed ∧
    (t.writing = true →
      (run (tunnelStep S peer) t (List.replicate t.channel.length (.write true))).device =
        handed.filter Passage.isIp) ∧
    t.device.Pairwise (fun x y => x.ref = y.ref → x.tag < y.tag) ∧
    (∀ x ∈ handed, x.plaintext ≠ pingPayload ∧
      (∃ y ∈ history, Brings S peer y.1 y.2 x.tag x.ref x.wire) ∧
      ∃ y ∈ history, Reveals S y.1 y.2 x) ∧
    (t.writing = false → ∀ fs, (run (tunnelStep S peer) t fs).device = t.device) := by
  intro t history handed
  have hturn : InLine t :=
    run_invariant (I := InLine) (fun t e h => h.step e) (inLine_new p)
  have hstart : (Tunnel.new p : Tunnel Conn).Dealt [] := ⟨[], [], rfl, rfl, fun _ => rfl⟩
  have hdealt : t.Dealt handed := dealt_run hstart es
  have hall : (history.flatMap fun x => (x.1.outputs S peer x.2).filterMap Output.plaintext?) =
      handed.map Passage.plaintext := by
    rw [List.map_flatMap]
    exact List.flatMap_congr fun x _ => plaintexts_tunnel x.1 x.2
  refine ⟨hall, hdealt, hdealt.drain, ?_, fun x hx => ?_, fun hw => ended_run hw⟩
  · exact hturn.passed.sublist (List.sublist_append_left _ _)
  · obtain ⟨y, hy, hxy⟩ := List.mem_flatMap.mp hx
    have hfound : InLine y.1 := (trace_keeps (I := InLine) (C := fun _ _ => True)
      (fun t e h _ => h.step e) (inLine_new p) (fun _ _ => trivial) y hy).1
    obtain ⟨hping, hreveals, q, hq, htag, href, hpkt⟩ := hfound.passages_origin hxy
    refine ⟨hping, ?_, y, hy, hreveals⟩
    rcases trace_origin (f := fun t : Tunnel Conn => t.net.queue)
      (P := fun t e (q : Parcel) => Brings S peer t e q.tag q.ref q.pkt) queue_origin y hy q hq with
      hnew | hbrought
    · cases hnew
    · rwa [htag, href, hpkt] at hbrought

end Javs
