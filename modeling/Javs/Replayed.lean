import Javs.Stamp
import Javs.Network

/-!
Replays of control packets, and the reaper.

A session is watched from the `HARD_RESET` that opens it to its eviction: the control packets
that come over its transport, as bytes, whatever else happens to it, and the ticks of the
reaper. Some of the packets are copies of packets the session has accepted before. Behind an
envelope the replay window refuses every copy. But the session counts as heard of before the
window is asked, so a copy puts off the eviction, unless it comes at the very time the session
was last heard of.
-/

namespace Javs

open Lib Proc

variable {Conn : Type}

/-! ### The window -/

namespace ReplayWindow

def Refuses (r : ReplayWindow) (pid : UInt32) : Prop := pid = 0 ∨ r.Barred pid

variable {r : ReplayWindow} {pid : UInt32}

lemma refuses_iff : r.Refuses pid ↔ (r.checkAndSet pid).1 = false := by
  rw [← Bool.not_eq_true, checkAndSet_fst, Refuses]
  tauto

lemma Refuses.after (h : r.Refuses pid) (replayPid : Option UInt32) :
    (r.after replayPid).Refuses pid := by
  rcases replayPid with _ | p
  · exact h
  · exact h.imp_right fun hb => hb.checkAndSet p

lemma refuses_after (r : ReplayWindow) (pid : UInt32) : (r.after (some pid)).Refuses pid := by
  rcases h : (r.checkAndSet pid).1
  · exact (refuses_iff.mpr h).after _
  · exact .inr (barred_checkAndSet_self h)

end ReplayWindow

/-! ### A session under watch -/

structure Watch (Conn : Type) where
  world : World Conn
  /-- The control packets it has accepted, that which opened it included. -/
  accepted : List Bytes
  /-- The tick at which the reaper evicted it. -/
  evicted : Option ℕ := none

inductive Inbound (Conn : Type)
  /-- A control packet arrives; it may be marked as a copy. -/
  | packet (copy : Bool) (env : Env Conn) (pkt : Bytes)
  | event (e : Event Conn)
  /-- A tick of the reaper. -/
  | tick (now : ℕ)

def Inbound.isCopy : Inbound Conn → Bool
  | .packet copy .. => copy
  | _ => false

def Event.isControl : Event Conn → Bool
  | .control .. => true
  | _ => false

variable (S : VpnServer Conn) (peer : ℕ → SocketAddr) (transport : Transport)

/-- What `handle_control_packet` is given for the bytes that came over the transport, if they
get so far. -/
def readControl (pkt : Bytes) : Option (ControlPacket × Option UInt32) :=
  match (receive S peer transport pkt).findSome? (@Call.toControl Conn) with
  | some (.control _ ctrl replayPid _) => some (ctrl, replayPid)
  | _ => none

/-- The session which the packet opens. -/
def Watch.begin (env : Env Conn) (conn : Conn) (tab : Tables) (peerId : UInt32) (pkt : Bytes) :
    Option (Watch Conn) :=
  match readControl S peer transport pkt with
  | some (ctrl, replayPid) =>
    if ctrl.op.isHardResetClient then
      some { world := started S ⟨env, conn, tab, ctrl, replayPid, peerId, transport⟩
             accepted := [pkt] }
    else none
  | none => none

/-- Once it has been evicted, nothing reaches the session. -/
def watch (s : Watch Conn) (e : Inbound Conn) : Watch Conn :=
  if s.evicted.isSome then s
  else
    match e with
    | .packet _ env pkt =>
      match readControl S peer transport pkt with
      | none => s
      | some (ctrl, replayPid) =>
        { s with
          world := step S (transport.addr peer) s.world (.control env ctrl replayPid)
          accepted := if accepts s.world replayPid then s.accepted ++ [pkt] else s.accepted }
    | .event e =>
      if e.isControl then s else { s with world := step S (transport.addr peer) s.world e }
    | .tick now =>
      if now - s.world.sess.lastSeen ≥ S.cfg.keepaliveTimeout.toNat * 1000 then
        { s with evicted := some now }
      else s

/-- What is marked as a copy is one, of a packet the session has accepted. -/
def Copies (s : Watch Conn) : Inbound Conn → Prop
  | .packet true _ pkt => pkt ∈ s.accepted
  | _ => True

instance (s : Watch Conn) (e : Inbound Conn) : Decidable (Copies s e) := by
  unfold Copies
  split <;> infer_instance

/-- The packet is turned away by the replay check. -/
def Watch.Rejects (s : Watch Conn) (env : Env Conn) (pkt : Bytes) : Prop :=
  ∃ ctrl pid, readControl S peer transport pkt = some (ctrl, some pid) ∧
    (handleLocked S (transport.addr peer) ctrl (some pid) { s.world with env }).1 =
      .error (.bail s!"tls-auth replay rejected pid={pid}")

/-- A copy is rejected, and leaves the session as it is. -/
def Harmless (s : Watch Conn) : Inbound Conn → Prop
  | .packet true env pkt => s.evicted = none → s.Rejects S peer transport env pkt ∧
      (watch S peer transport s (.packet true env pkt)).world.sess = s.world.sess
  | _ => True

/-- The copies in a run change nothing: not one of them touches the session, and in the end the
session is the one of the run without them, and evicted at the same tick if at all. -/
structure Inert (s : Watch Conn) (es : List (Inbound Conn)) : Prop where
  each : AllMeet (watch S peer transport) (Harmless S peer transport) s es
  session : (run (watch S peer transport) s es).world.sess =
    (run (watch S peer transport) s (es.filter fun e => !e.isCopy)).world.sess
  evicted : (run (watch S peer transport) s es).evicted =
    (run (watch S peer transport) s (es.filter fun e => !e.isCopy)).evicted

/-- A copy comes at the very time the session was last heard of. -/
def AtLastSeen (s : Watch Conn) : Inbound Conn → Prop
  | .packet true env _ => s.evicted = none → env.now = s.world.sess.lastSeen
  | _ => True

/-! ### Copies are refused -/

section

variable {S peer transport} {s : Watch Conn}

lemma unwrapControl_envelope (henv : S.tlsCrypt.isSome ∨ S.tlsAuth.isSome) {pkt : Bytes}
    {inner : Option Bytes} {replayPid : Option UInt32}
    (h : unwrapControl S pkt = .ok (inner, replayPid)) : ∃ pid, replayPid = some pid := by
  unfold unwrapControl at h
  rcases hc : S.tlsCrypt with _ | tc <;> rcases ha : S.tlsAuth with _ | ta <;>
    simp only [hc, ha, Option.isSome_none, Option.isSome_some, Bool.false_eq_true, or_self,
      or_true, true_or] at h henv
  · rcases hu : ta.unwrap S.prims pkt with e | ⟨inner', pid⟩ <;> rw [hu] at h <;> cases h
    exact ⟨pid, rfl⟩
  all_goals
    rcases hu : tc.unwrap S.prims pkt with e | ⟨inner', pid⟩ <;> rw [hu] at h <;> cases h
    exact ⟨pid, rfl⟩

lemma receive_envelope (henv : S.tlsCrypt.isSome ∨ S.tlsAuth.isSome) {pkt inner : Bytes}
    {addr : SocketAddr} {replayPid : Option UInt32} {t : Transport}
    (h : .handleControlPacket addr inner replayPid t ∈ receive S peer transport pkt) :
    ∃ pid, replayPid = some pid := by
  rcases receive_cases S peer transport pkt with hr | ⟨wire, hr⟩ |
    ⟨wire, inner', pid, hu, hr⟩ <;> rw [hr] at h
  · cases h
  · cases List.mem_singleton.mp h
  · cases List.mem_singleton.mp h
    exact unwrapControl_envelope henv hu

lemma readControl_envelope (henv : S.tlsCrypt.isSome ∨ S.tlsAuth.isSome) {pkt : Bytes}
    {ctrl : ControlPacket} {replayPid : Option UInt32}
    (h : readControl S peer transport pkt = some (ctrl, replayPid)) :
    ∃ pid, replayPid = some pid := by
  unfold readControl at h
  split at h
  · rename_i addr ctrl' replayPid' t hcall
    cases h
    obtain ⟨call, hmem, hcall⟩ := List.exists_of_findSome?_eq_some hcall
    cases call with
    | routeData => cases hcall
    | handleControlPacket addr' inner replayPid'' t' =>
      simp only [Call.toControl] at hcall
      split at hcall
      · cases hcall
      · cases hcall
        exact receive_envelope henv hmem
  · cases h

def Spent (S : VpnServer Conn) (peer : ℕ → SocketAddr) (transport : Transport)
    (s : Watch Conn) : Prop :=
  ∀ pkt ∈ s.accepted, ∃ ctrl pid, readControl S peer transport pkt = some (ctrl, some pid) ∧
    s.world.sess.tlsAuthReplay.Refuses pid

lemma spent_begin (henv : S.tlsCrypt.isSome ∨ S.tlsAuth.isSome) {env : Env Conn} {conn : Conn}
    {tab : Tables} {peerId : UInt32} {pkt : Bytes}
    (h : Watch.begin S peer transport env conn tab peerId pkt = some s) :
    Spent S peer transport s := by
  unfold Watch.begin at h
  rcases hread : readControl S peer transport pkt with _ | ⟨ctrl, replayPid⟩ <;> rw [hread] at h
  · cases h
  obtain ⟨pid, rfl⟩ := readControl_envelope henv hread
  dsimp only at h
  split at h
  · cases h
    intro pkt' hpkt
    cases List.mem_singleton.mp hpkt
    refine ⟨ctrl, pid, hread, ?_⟩
    have hwindow : (started S ⟨env, conn, tab, ctrl, some pid, peerId,
        transport⟩).sess.tlsAuthReplay = ReplayWindow.new.after (some pid) :=
      congrArg (·.1.tlsAuthReplay) (started_stamp S _)
    rw [hwindow]
    exact ReplayWindow.refuses_after _ pid
  · cases h

lemma window_step {addr : SocketAddr} {w : World Conn} {e : Event Conn}
    (he : e.isControl = false) : (step S addr w e).sess.tlsAuthReplay = w.sess.tlsAuthReplay := by
  have hown (ho : e.isOwn = true) :
      (step S addr w e).sess.tlsAuthReplay = w.sess.tlsAuthReplay :=
    congrArg (·.1.tlsAuthReplay) (step_stamp S addr w ho)
  cases e with
  | control => cases he
  | data env pkt =>
    rcases step_data_stamp S addr w env pkt with hstamp | hstamp
    · exact congrArg (·.1.tlsAuthReplay) hstamp
    · exact congrArg (·.1.tlsAuthReplay) hstamp
  | tun | ping | rekey | retransmit | shutdown | shared => exact hown rfl

lemma Spent.next (henv : S.tlsCrypt.isSome ∨ S.tlsAuth.isSome) (h : Spent S peer transport s)
    (e : Inbound Conn) : Spent S peer transport (watch S peer transport s e) := by
  unfold watch
  split
  · exact h
  cases e with
  | packet copy env pkt =>
    dsimp only
    rcases hread : readControl S peer transport pkt with _ | ⟨ctrl, replayPid⟩
    · exact h
    obtain ⟨pid, rfl⟩ := readControl_envelope henv hread
    have hstamp := step_control_stamp S (transport.addr peer) s.world env ctrl (some pid)
    have hwindow : (step S (transport.addr peer) s.world (.control env ctrl
        (some pid))).sess.tlsAuthReplay = s.world.sess.tlsAuthReplay.after (some pid) :=
      congrArg (·.1.tlsAuthReplay) hstamp
    -- an id that was refused stays refused
    have hold (pkt') (hpkt : pkt' ∈ s.accepted) : ∃ ctrl' pid',
        readControl S peer transport pkt' = some (ctrl', some pid') ∧
          (s.world.sess.tlsAuthReplay.after (some pid)).Refuses pid' := by
      obtain ⟨ctrl', pid', hread', hrefuses⟩ := h pkt' hpkt
      exact ⟨ctrl', pid', hread', hrefuses.after _⟩
    intro pkt' hpkt
    dsimp only at hpkt ⊢
    rw [hwindow]
    split at hpkt
    · rcases List.mem_append.mp hpkt with hpkt | hpkt
      · exact hold pkt' hpkt
      · cases List.mem_singleton.mp hpkt
        exact ⟨ctrl, pid, hread, ReplayWindow.refuses_after _ pid⟩
    · exact hold pkt' hpkt
  | event e =>
    dsimp only
    split
    · exact h
    · rename_i he
      intro pkt hpkt
      dsimp only
      rw [window_step (by simpa using he)]
      exact h pkt hpkt
  | tick now =>
    dsimp only
    split <;> exact h

lemma Spent.copy (h : Spent S peer transport s) {env : Env Conn} {pkt : Bytes}
    (hpkt : pkt ∈ s.accepted) (hs : s.evicted = none) :
    s.Rejects S peer transport env pkt ∧
      watch S peer transport s (.packet true env pkt) =
        { s with world := World.seenNow { s.world with env } } := by
  obtain ⟨ctrl, pid, hread, hrefuses⟩ := h pkt hpkt
  have hcheck := ReplayWindow.refuses_iff.mp hrefuses
  have hhandle := handleLocked_refused (w := { s.world with env }) S (transport.addr peer) ctrl
    hcheck
  refine ⟨⟨ctrl, pid, hread, by rw [hhandle]⟩, ?_⟩
  have haccepts : accepts s.world (some pid) = false := hcheck
  have hstep : step S (transport.addr peer) s.world (.control env ctrl (some pid)) =
      World.seenNow { s.world with env } := by rw [step, hhandle]
  simp only [watch, hs, Option.isSome_none, Bool.false_eq_true, if_false, hread, haccepts, hstep]

/-! ### Runs with and without copies -/

/-- Two worlds that differ at most in what the environment has in store. -/
def World.Agrees (w v : World Conn) : Prop := ∀ env, { w with env } = { v with env }

lemma World.Agrees.next {w v : World Conn} (h : w.Agrees v) (addr : SocketAddr) (e : Event Conn) :
    (step S addr w e).Agrees (step S addr v e) := by
  intro env
  cases e with
  | shared tab => exact congrArg (fun u : World Conn => { u with tab }) (h env)
  | control env' | data env' | tun env' | ping env' | rekey env' | retransmit env'
  | shutdown env' => simp only [step, h env']

lemma World.Agrees.sess {w v : World Conn} (h : w.Agrees v) : w.sess = v.sess :=
  (World.mk.inj (h w.env)).1

structure Watch.Agrees (s t : Watch Conn) : Prop where
  world : s.world.Agrees t.world
  accepted : s.accepted = t.accepted
  evicted : s.evicted = t.evicted

lemma Watch.Agrees.next {t : Watch Conn} (h : s.Agrees t) (e : Inbound Conn) :
    (watch S peer transport s e).Agrees (watch S peer transport t e) := by
  have hsess := h.world.sess
  unfold watch
  rw [h.evicted]
  split
  · exact h
  cases e with
  | packet copy env pkt =>
    dsimp only
    rcases readControl S peer transport pkt with _ | ⟨ctrl, replayPid⟩
    · exact h
    · have haccepts : accepts s.world replayPid = accepts t.world replayPid := by
        rw [accepts, accepts, hsess]
      refine ⟨h.world.next _ _, ?_, rfl⟩
      simp only [haccepts, h.accepted]
  | event e =>
    dsimp only
    split
    · exact h
    · exact ⟨h.world.next _ _, h.accepted, rfl⟩
  | tick now =>
    dsimp only
    rw [hsess]
    split
    · exact ⟨h.world, h.accepted, rfl⟩
    · exact h

lemma Spent.copy_agrees {t : Watch Conn} (h : Spent S peer transport s) (hst : s.Agrees t)
    {env : Env Conn} {pkt : Bytes} (hpkt : pkt ∈ s.accepted)
    (hnow : AtLastSeen s (.packet true env pkt)) :
    (watch S peer transport s (.packet true env pkt)).Agrees t := by
  rcases hs : s.evicted with _ | tick
  · have hseen : World.seenNow { s.world with env } = { s.world with env } := by
      rw [World.seenNow, hnow hs]
    rw [(h.copy hpkt hs).2, hseen]
    exact ⟨hst.world, hst.accepted, hst.evicted⟩
  · simp only [watch, hs, Option.isSome_some, if_true]
    exact hst

end

/-- **Replayed control packets change nothing exactly if** each of them comes at the very time
the session was last heard of. -/
theorem copies_inert_iff {env : Env Conn} {conn : Conn} {tab : Tables} {peerId : UInt32}
    {pkt : Bytes} {s : Watch Conn} {es : List (Inbound Conn)}
    (henv : S.tlsCrypt.isSome ∨ S.tlsAuth.isSome)
    (hs : Watch.begin S peer transport env conn tab peerId pkt = some s)
    (hcopies : AllMeet (watch S peer transport) Copies s es) :
    Inert S peer transport s es ↔ AllMeet (watch S peer transport) AtLastSeen s es := by
  have hall := trace_keeps (I := Spent S peer transport) (fun s e h _ => h.next henv e)
    (spent_begin henv hs) hcopies
  constructor
  · rintro ⟨heach, -, -⟩ ⟨s', e⟩ hx
    obtain ⟨hspent, hcopy⟩ := hall _ hx
    have hharmless := heach _ hx
    rcases e with ⟨_ | _, env', pkt'⟩ | _ | _ <;> try exact trivial
    intro hthere
    have hsess := (hharmless hthere).2
    rw [(hspent.copy hcopy hthere).2] at hsess
    exact congrArg Session.lastSeen hsess
  · intro hnow
    -- each event of the run, with all that is known of the state it finds
    have hmeet : AllMeet (watch S peer transport)
        (fun s e => Spent S peer transport s ∧ Copies s e ∧ AtLastSeen s e) s es :=
      fun x hx => ⟨(hall x hx).1, (hall x hx).2, hnow x hx⟩
    have hkeep (s t : Watch Conn) (e : Inbound Conn) (hst : s.Agrees t)
        (_ : Spent S peer transport s ∧ Copies s e ∧ AtLastSeen s e) (_ : (!e.isCopy) = true) :
        (watch S peer transport s e).Agrees (watch S peer transport t e) ∧
          ([] : List Unit) = [] := ⟨hst.next e, rfl⟩
    have hdrop (s t : Watch Conn) (e : Inbound Conn) (hst : s.Agrees t)
        (h : Spent S peer transport s ∧ Copies s e ∧ AtLastSeen s e)
        (he : (!e.isCopy) = false) :
        (watch S peer transport s e).Agrees t ∧ ([] : List Unit) = [] := by
      rcases e with ⟨_ | _, env', pkt'⟩ | _ | _ <;> try cases he
      exact ⟨h.1.copy_agrees hst h.2.1 h.2.2, rfl⟩
    have hself : s.Agrees s := ⟨fun _ => rfl, rfl, rfl⟩
    obtain ⟨hagrees, -⟩ := run_filter hkeep hdrop hself hmeet
    refine ⟨fun x hx => ?_, hagrees.world.sess, hagrees.evicted⟩
    obtain ⟨s', e⟩ := x
    obtain ⟨hspent, hcopy⟩ := hall _ hx
    rcases e with ⟨_ | _, env', pkt'⟩ | _ | _ <;> try exact trivial
    intro hthere
    obtain ⟨hrejects, -⟩ : s'.Rejects S peer transport env' pkt' ∧ _ :=
      hspent.copy hcopy hthere
    have hsame := hspent.copy_agrees ⟨fun _ => rfl, rfl, rfl⟩ hcopy (hnow _ hx)
    exact ⟨hrejects, hsame.world.sess⟩

/-! ### A client behind an envelope -/

def watchedStart : Watch Plain where
  world := started authServer { plainOpening with replayPid := some 1 }
  accepted := [enveloped clientReset 1]

lemma begin_watchedStart : Watch.begin authServer (fun _ => otherAddr) (.udp plainAddr)
    (plainEnv 1) {} plainOpening.tab 1 (enveloped clientReset 1) = some watchedStart := by
  have hread : readControl authServer (fun _ => otherAddr) (.udp plainAddr)
      (enveloped clientReset 1) = some (clientReset, some 1) := by decide +kernel
  rw [Watch.begin, hread]
  rfl

def promptCopy : List (Inbound Plain) :=
  [.packet true (plainEnv 1) (enveloped clientReset 1), .tick 60000, .tick 120000]

theorem copies_inert_iff_prompt :
    let S := authServer
    let peer := fun _ => otherAddr
    let transport := Transport.udp plainAddr
    (S.tlsCrypt.isSome ∨ S.tlsAuth.isSome) ∧
      Watch.begin S peer transport (plainEnv 1) {} plainOpening.tab 1 (enveloped clientReset 1) =
        some watchedStart ∧
      AllMeet (watch S peer transport) Copies watchedStart promptCopy ∧
      (Inert S peer transport watchedStart promptCopy ↔
        AllMeet (watch S peer transport) AtLastSeen watchedStart promptCopy) :=
  ⟨by decide, begin_watchedStart, by decide +kernel,
    copies_inert_iff authServer (fun _ => otherAddr) (.udp plainAddr) (by decide)
      begin_watchedStart (by decide +kernel)⟩

def lateCopy : List (Inbound Plain) :=
  [.packet true { plainEnv 1 with now := 60000 } (enveloped clientReset 1), .tick 120000]

/-- A copy is rejected, but it keeps alive a session which the reaper evicts otherwise. -/
theorem late_copy_delays_eviction :
    let watched := watch authServer (fun _ => otherAddr) (.udp plainAddr)
    AllMeet watched Copies watchedStart lateCopy ∧
      (run watched watchedStart lateCopy).evicted = none ∧
      (run watched watchedStart (lateCopy.filter fun e => !e.isCopy)).evicted = some 120000 ∧
      ¬ Inert authServer (fun _ => otherAddr) (.udp plainAddr) watchedStart lateCopy := by
  intro watched
  have hwith : (run watched watchedStart lateCopy).evicted = none := by decide +kernel
  have hwithout : (run watched watchedStart (lateCopy.filter fun e => !e.isCopy)).evicted =
    some 120000 := by decide +kernel
  refine ⟨by decide +kernel, hwith, hwithout, fun h => ?_⟩
  have hevicted := h.evicted
  rw [hwith, hwithout] at hevicted
  cases hevicted

end Javs
