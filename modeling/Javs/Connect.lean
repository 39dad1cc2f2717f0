import Javs.Agreement

/-!
A client that keeps to the protocol gets connected.

What such a client says over the main TLS connection is its half of the key exchange and a
`PUSH_REQUEST`. However the stream is cut, and whatever else happens to the session in between,
how far the session has come is a matter of how much of the stream it has heard.
-/

namespace Javs

open Lib Lib.Proc Relation M Bytes

variable {Conn : Type}

def pushRequest : Bytes := ascii "PUSH_REQUEST" ++ [0]

/-- All that a client has to say. -/
def ClientKeyMethod2.greeting (km : ClientKeyMethod2) : Bytes := km.encode ++ pushRequest

instance (S : VpnServer Conn) (w : World Conn) : Decidable (Smooth S w) :=
  inferInstanceAs (Decidable (_ → _))

/-- TLS accepts what the event feeds to it, and a request upon it finds its addresses. -/
def GoesWell (S : VpnServer Conn) (w : World Conn) (e : Event Conn) : Prop :=
  ∀ ctrl ∈ w.feeds e,
    (w.sess.tls.feed S.rustls ctrl.payload).2 = .ok () ∧ Smooth S (w.fed S ctrl)

instance (S : VpnServer Conn) (w : World Conn) (e : Event Conn) : Decidable (GoesWell S w e) :=
  inferInstanceAs (Decidable (∀ ctrl ∈ w.feeds e, _))

/-- How far a session has come that has heard `p`, and of that has not taken `b`. -/
inductive Reached (S : VpnServer Conn) (km : ClientKeyMethod2) (p : Bytes) (a : Account)
    (b : Bytes) : Prop
  | handshaking (hs : a.state = .handshaking) (hb : b = p)
  | exchanging (hs : a.state = .keyExchange) (hb : b = p) (hp : p <+: km.encode)
      (hne : p ≠ km.encode)
  | requesting (hs : a.state = .pushPending) (hp : p = km.encode ++ b) (hb : b <+: pushRequest)
      (hne : b ≠ pushRequest) (hslot : a.installs.head? = some (a.firstSlot S km))
  | connected (hs : a.state = .established) (hp : p = km.greeting) (hb : b = [])
      (hslot : a.installs.head? = some (a.firstSlot S km))

/-! ### What the control plane makes of the stream -/

section Consumed

variable {S : VpnServer Conn} {addr : SocketAddr} {c₀ : Conn} {km : ClientKeyMethod2} {b : Bytes}
  {u : World (Conn × List Bytes)}

lemma controlPlane_of_taking {act : M (Conn × List Bytes) Bool} {n : ℕ}
    (h : TakingRound S.recording addr b u.sess.state act n) :
    controlPlane S addr c₀ u b = some ((act u).2.bare c₀, n) := by
  rw [controlPlane, roundAct_eq_some.mpr h]
  rfl

lemma smooth_of_taking (hS : S.Queues) {act : M (Conn × List Bytes) Bool} {n : ℕ}
    (h : TakingRound S.recording addr b u.sess.state act n) (hu : Smooth S.recording u) :
    Smooth S.recording ((act u).2.bare c₀) := by
  have hends := h.smooth (recording_queues hS) hu u rfl
  rcases hact : act u with ⟨e | goOn, v⟩ <;> rw [hact] at hends
  · exact hends.elim
  · exact hends.1

lemma tryPopAscii_part (hb : b <+: pushRequest) (hne : b ≠ pushRequest) :
    tryPopAscii b = .needMore := by
  have hparts : ∀ b ∈ pushRequest.inits, b ≠ pushRequest → tryPopAscii b = .needMore := by decide
  exact hparts b ((List.mem_inits _ _).mpr hb) hne

lemma established_takeRequest (hS : S.Queues) (hcan : CanAssign S.recording u) (n : ℕ) :
    (takeRequest S.recording addr "PUSH_REQUEST".toList n u).2.sess.state = .established := by
  have hcan' : CanAssign S.recording { u with sess := { u.sess with tls := u.sess.tls.drain n } } :=
    canAssign_congr rfl rfl hcan
  have hpush : Ends (CanAssign S.recording) (handlePushRequest S.recording addr)
      (fun _ w => w.sess.state = .established) fun _ => False :=
    ends_handlePushRequest (recording_queues hS)
  have hends := hpush _ hcan'
  unfold takeRequest modifySess
  rw [modify_bind, if_pos rfl]
  rcases hres : handlePushRequest S.recording addr
    { u with sess := { u.sess with tls := u.sess.tls.drain n } } with ⟨e | ⟨⟩, t⟩ <;>
    rw [hres] at hends
  · exact hends.elim
  · rw [bind_ok hres]
    exact hends

lemma reached_pushPending (hS : S.Queues) (hs : u.sess.state = .pushPending)
    (hu : Smooth S.recording u) (hslot : u.account.installs.head? = some (u.account.firstSlot S km))
    (hb : b <+: pushRequest) :
    Reached S km (km.encode ++ b) ((controlPlane S addr c₀).consume u b).1.account
      ((controlPlane S addr c₀).consume u b).2 := by
  by_cases hne : b = pushRequest
  · subst hne
    have htaking : TakingRound S.recording addr pushRequest u.sess.state
        (takeRequest S.recording addr "PUSH_REQUEST".toList 13) 13 :=
      hs ▸ .request _ _ (by decide)
    have hdrop : pushRequest.drop 13 = [] := rfl
    rw [(controlPlane_steady S addr c₀).consume_of_some (controlPlane_of_taking htaking), hdrop,
      Consumer.consume_nil]
    exact .connected (established_takeRequest hS (hu (.inr hs)) 13) rfl rfl
      (postings_firstSlot (htaking.postings hS) hslot)
  -- part of the request is not popped, so the plaintext waits for what follows
  · have hwait : controlPlane S addr c₀ u b = none := by
      rw [controlPlane, hs, roundAct, tryPopAscii_part hb hne]
      rfl
    rw [Consumer.consume_of_none hwait]
    exact .requesting hs rfl hb hne hslot

lemma reached_keyExchange (hS : S.Queues) (hkm : km.Sendable) (hs : u.sess.state = .keyExchange)
    (hu : Smooth S.recording u) (hnone : u.account.installs = []) (hb : b <+: km.greeting) :
    Reached S km b ((controlPlane S addr c₀).consume u b).1.account
      ((controlPlane S addr c₀).consume u b).2 := by
  by_cases hwhole : km.encode <+: b
  · obtain ⟨r, rfl⟩ := hwhole
    have hr : r <+: pushRequest := (List.prefix_append_right_inj _).mp hb
    have htaking : TakingRound S.recording addr (km.encode ++ r) u.sess.state
        (takeKeys S.recording km km.encode.length) km.encode.length :=
      hs ▸ .keys _ _ (hkm.tryParse_encode r)
    have haccount := account_takeKeys hS km km.encode.length u
    rw [(controlPlane_steady S addr c₀).consume_of_some (controlPlane_of_taking htaking),
      List.drop_left]
    refine reached_pushPending hS ?_ (smooth_of_taking hS htaking hu) ?_ hr
    · exact congrArg Account.state haccount
    · show (takeKeys S.recording km km.encode.length u).2.account.installs.head? =
        some ((takeKeys S.recording km km.encode.length u).2.account.firstSlot S km)
      rw [haccount, hnone]
      rfl
  -- two beginnings of one stream: what does not reach the end of the message is part of it
  · have hpart : b <+: km.encode :=
      (List.prefix_or_prefix_of_prefix hb (List.prefix_append _ _)).resolve_right hwhole
    have hne : b ≠ km.encode := fun h => hwhole (h ▸ List.prefix_refl _)
    have hwait : controlPlane S addr c₀ u b = none := by
      rw [controlPlane, hs, roundAct, hkm.tryParse_part hpart hne]
      rfl
    rw [Consumer.consume_of_none hwait]
    exact .exchanging hs rfl hpart hne

end Consumed

/-! ### Events that feed the main connection -/

section Fed

variable {S : VpnServer Conn} {addr : SocketAddr} {w : World (Conn × List Bytes)}
  {ctrl : ControlPacket}

lemma front_fed {S : VpnServer Conn} {w t : World Conn} (h : t.front = w.front) :
    (t.fed S ctrl).front = (w.fed S ctrl).front := by
  obtain ⟨s, tab, env, log⟩ := w
  obtain ⟨s', tab', env', log'⟩ := t
  simp only [World.front, Prod.mk.injEq] at h
  obtain ⟨htls, hstate, hcn, rfl⟩ := h
  unfold World.fed Session.finalizeKeys
  dsimp only
  rw [htls, hstate]
  split
  · split <;> simp [World.front, hcn]
  · simp [World.front, hcn]

lemma smooth_of_front {S : VpnServer Conn} {w t : World Conn} (h : t.front = w.front)
    (hw : Smooth S w) : Smooth S t := by
  simp only [World.front, Prod.mk.injEq] at h
  obtain ⟨-, hstate, hcn, htab⟩ := h
  intro hst
  rw [hstate] at hst
  exact canAssign_congr htab hcn (hw hst)

variable (addr) in
lemma ledger_handleMainControl (hS : S.Queues)
    (hok : (w.sess.tls.feed S.recording.rustls ctrl.payload).2 = .ok ())
    (hw : Smooth S.recording (w.fed S.recording ctrl)) (c₀ : Conn) :
    (handleMainControl S.recording addr ctrl w).2.ledger =
      (((controlPlane S addr c₀).consume (w.fed S.recording ctrl)
          (w.fed S.recording ctrl).sess.tls.plaintextIn).1.account,
        ((controlPlane S addr c₀).consume (w.fed S.recording ctrl)
          (w.fed S.recording ctrl).sess.tls.plaintextIn).2) := by
  rw [handleMainControl_of_ok addr hok]
  generalize w.fed S.recording ctrl = u at hw
  have hself : Unbared u u.sess.tls.plaintextIn u := ⟨u.sess.tls.conn, rfl, rfl⟩
  obtain ⟨⟨c, hc, hdone⟩, -⟩ :=
    driveLoop_consumes hS addr c₀ (u.sess.tls.plaintextIn.length + 1) hw hself
  rw [(controlPlane_steady S addr c₀).drain_eq (Nat.le_succ _)] at hc hdone
  have hdrive : driveControlPlane S.recording addr u =
    driveLoop S.recording addr (u.sess.tls.plaintextIn.length + 1) u := rfl
  have hflush :
      ((driveControlPlane S.recording addr >>= fun _ => flushOutgoing S.recording) u).2.ledger =
        (driveLoop S.recording addr (u.sess.tls.plaintextIn.length + 1) u).2.ledger := by
    rcases hrun : driveLoop S.recording addr (u.sess.tls.plaintextIn.length + 1) u with
      ⟨e | ⟨⟩, t⟩ <;> rw [hrun] at hdrive
    · rw [bind_error hdrive]
    · rw [bind_ok hdrive]
      exact ledger_of_holdings (holdings_flushOutgoing S) t
  rw [hflush, hdone]
  refine Prod.ext ?_ rfl
  simp only [World.ledger, World.account, World.setTls, World.queued, hc]

end Fed

/-! ### The stream -/

section Stream

variable {S : VpnServer Conn} {addr : SocketAddr} {w : World (Conn × List Bytes)}
  {km : ClientKeyMethod2} {p b piece : Bytes} {a : Account}

lemma Reached.quiet {a' : Account} (h : Reached S km p a b) (he : Postings S a a')
    (hs : a'.state = a.state) : Reached S km p a' b := by
  cases h with
  | handshaking hst hb => exact .handshaking (hs.trans hst) hb
  | exchanging hst hb hp hne => exact .exchanging (hs.trans hst) hb hp hne
  | requesting hst hp hb hne hslot =>
    exact .requesting (hs.trans hst) hp hb hne (postings_firstSlot he hslot)
  | connected hst hp hb hslot => exact .connected (hs.trans hst) hp hb (postings_firstSlot he hslot)

lemma Reached.fed (hS : S.Queues) (hkm : km.Sendable) (h : Reached S km p a b)
    (hnone : a.state.unkeyed = true → a.installs = []) (hp : p ++ piece <+: km.greeting)
    {u : World (Conn × List Bytes)} (hu : Smooth S.recording u) {c₀ : Conn}
    (ha : u.account = a ∨
      a.state = .handshaking ∧ ∃ cn, u.account = { a with state := .keyExchange, cn }) :
    Reached S km (p ++ piece) ((controlPlane S addr c₀).consume u (b ++ piece)).1.account
      ((controlPlane S addr c₀).consume u (b ++ piece)).2 := by
  rcases ha with rfl | ⟨hst, cn, hcn⟩
  · cases h with
    | handshaking hs hb =>
      subst hb
      have hwait : controlPlane S addr c₀ u (b ++ piece) = none := by
        have hs' : u.sess.state = .handshaking := hs
        rw [controlPlane, hs']
        rfl
      rw [Consumer.consume_of_none hwait]
      exact .handshaking hs rfl
    | exchanging hs hb =>
      subst hb
      exact reached_keyExchange hS hkm hs hu (hnone (by rw [hs]; rfl)) hp
    | requesting hs hpb hb hne hslot =>
      subst hpb
      rw [List.append_assoc] at hp ⊢
      exact reached_pushPending hS hs hu hslot ((List.prefix_append_right_inj _).mp hp)
    | connected hs hpb hb hslot =>
      -- all of the stream has been heard, so this piece is empty
      subst hpb hb
      have hpiece : piece = [] := by
        have hlen := hp.length_le
        rw [List.length_append] at hlen
        exact List.eq_nil_of_length_eq_zero (by omega)
      rw [hpiece, List.append_nil, List.append_nil, Consumer.consume_nil]
      -- the feed has ended the handshake; what it brought along is taken at once
      exact .connected hs rfl rfl hslot
  · have hb : b = p := by
      cases h with
      | handshaking _ hb => exact hb
      | exchanging hs | requesting hs | connected hs => rw [hst] at hs; cases hs
    subst hb
    refine reached_keyExchange hS hkm (congrArg Account.state hcn) hu ?_ hp
    rw [hcn]
    exact hnone (by rw [hst]; rfl)

lemma Reached.step (hS : S.Queues) (hkm : km.Sendable) (hw : w.sess.Shaped)
    (hstraight : w.account.Straight S) (h : Reached S km p w.account w.sess.tls.plaintextIn)
    {e : Event (Conn × List Bytes)} (hwell : GoesWell S.recording w e)
    (hp : p ++ w.hears S.recording e <+: km.greeting) :
    Reached S km (p ++ w.hears S.recording e) (step S.recording addr w e).account
      (step S.recording addr w e).sess.tls.plaintextIn := by
  rcases hfeeds : w.feeds e with _ | ctrl
  · have hhears : w.hears S.recording e = [] := by rw [World.hears, hfeeds]; rfl
    have hstand := stand_step addr hS hfeeds
    have hplain : (Javs.step S.recording addr w e).sess.tls.plaintextIn =
      w.sess.tls.plaintextIn := congrArg Prod.snd hstand
    rw [hhears, List.append_nil, hplain]
    exact h.quiet (step_postings hS addr (later_of_shaped w rfl hw) e) (congrArg Prod.fst hstand)
  · have hhears : w.hears S.recording e =
        (w.sess.tls.feed S.recording.rustls ctrl.payload).1.plaintextIn.drop
          w.sess.tls.plaintextIn.length := by
      rw [World.hears, hfeeds]
      rfl
    obtain ⟨hok, hsmooth⟩ := hwell ctrl hfeeds
    obtain ⟨t, hstep, hfront, haccount⟩ := step_of_feeds S addr hfeeds
    have htls : t.sess.tls = w.sess.tls := congrArg Prod.fst hfront
    rw [← htls] at hok
    have hsmooth' := smooth_of_front (front_fed (S := S.recording) hfront) hsmooth
    have hledger := ledger_handleMainControl addr hS hok hsmooth' w.sess.tls.conn.1
    rw [plaintextIn_fed hok, htls, ← hhears] at hledger
    rw [hstep]
    obtain ⟨hacc, hplain⟩ := Prod.mk.inj hledger
    rw [hacc, hplain]
    refine h.fed hS hkm hstraight.unkeyed hp hsmooth' ?_
    rw [← haccount]
    exact account_fed S ctrl t

lemma reached_started (S : VpnServer Conn) (km : ClientKeyMethod2)
    (o : Opening (Conn × List Bytes)) :
    Reached S km [] (started S.recording o).account
      (started S.recording o).sess.tls.plaintextIn :=
  .handshaking (congrArg Account.state (account_started S o))
    (congrArg Prod.snd (ledger_started S o))

lemma Reached.run (hS : S.Queues) (hkm : km.Sendable) (addr : SocketAddr)
    {o : Opening (Conn × List Bytes)} (hconn : o.conn.2 = [])
    {es : List (Event (Conn × List Bytes))}
    (hwell : AllMeet (Javs.step S.recording addr) (GoesWell S.recording) (started S.recording o) es)
    (hp : heardPlaintext S.recording addr (started S.recording o) es <+: km.greeting) :
    Reached S km (heardPlaintext S.recording addr (started S.recording o) es)
      (Lib.run (Javs.step S.recording addr) (started S.recording o) es).account
      (Lib.run (Javs.step S.recording addr) (started S.recording o) es).sess.tls.plaintextIn := by
  induction es using List.reverseRecOn with
  | nil => exact reached_started S km o
  | append_singleton es e ih =>
    obtain ⟨hbefore, hlast⟩ := allMeet_append.mp hwell
    obtain ⟨hshaped, hpostings⟩ := run_postings hS addr o es
    rw [heardPlaintext_concat] at hp ⊢
    rw [run_append]
    exact (ih hbefore ((List.prefix_append _ _).trans hp)).step hS hkm hshaped
      ((straight_started S hconn).postings hpostings) (allMeet_cons.mp hlast).1 hp

end Stream

/-- **A client that keeps to the protocol gets connected.** Let what comes out of the main TLS
connection over a run be part of what such a client has to say, TLS accept what it is fed, and
requests find their addresses. However the stream is cut, and whatever else happens to the session
in between, it has come as far as the part of the stream lets it. With the whole stream, and the
handshake over, it is established, its client has been told so, and has the keys. -/
theorem client_gets_connected (S : VpnServer Conn) (addr : SocketAddr)
    (o : Opening (Conn × List Bytes)) (es : List (Event (Conn × List Bytes)))
    (km : ClientKeyMethod2) (hS : S.Queues) (hkm : km.Sendable) (hconn : o.conn.2 = [])
    (h1 : o.env.random1.length = randomLen) (h2 : o.env.random2.length = randomLen)
    (hwell : AllMeet (step S.recording addr) (GoesWell S.recording) (started S.recording o) es)
    (hp : heardPlaintext S.recording addr (started S.recording o) es <+: km.greeting) :
    let p := heardPlaintext S.recording addr (started S.recording o) es
    let w := run (step S.recording addr) (started S.recording o) es
    Reached S km p w.account w.sess.tls.plaintextIn ∧
      (p = km.greeting → w.sess.state ≠ .handshaking →
        w.sess.state = .established ∧
        (∃ ip, w.sess.assignedIp = some (.v4 ip) ∧
          [w.account.keyReply S, w.account.pushReply S ip w.sess.assignedIpV6] <+: w.queued) ∧
        ∃ slot, (installs w.log).head? = some slot ∧
          clientCipher S.prims km o.ctrl.sessionId o.env.serverSid w.queued.flatten =
            some slot.cipher.mirror) := by
  intro p w
  have hreached : Reached S km p w.account w.sess.tls.plaintextIn :=
    .run hS hkm addr hconn hwell hp
  refine ⟨hreached, fun hwhole hover => ?_⟩
  obtain ⟨hstate, hslot⟩ : w.account.state = .established ∧
      w.account.installs.head? = some (w.account.firstSlot S km) := by
    cases hreached with
    | handshaking hs => exact absurd hs hover
    | exchanging _ _ hpart hne =>
      have hlen := (hwhole ▸ hpart).length_le
      simp [ClientKeyMethod2.greeting, pushRequest] at hlen
    | requesting _ hb _ hne =>
      rw [hwhole, ClientKeyMethod2.greeting] at hb
      exact absurd (List.append_cancel_left hb).symm hne
    | connected hs _ _ hslot => exact ⟨hs, hslot⟩
  obtain ⟨-, hpostings⟩ := run_postings hS addr o es
  have hstraight : w.account.Straight S := (straight_started S hconn).postings hpostings
  obtain ⟨hr1, hr2, hcsid, hssid⟩ := postings_fixed hpostings
  rw [account_started] at hr1 hr2 hcsid hssid
  obtain ⟨ip, n, hip, hqueued⟩ := hstraight.settled (by rw [hstate]; rfl)
  refine ⟨hstate, ⟨ip, hip, List.replicate n restartNotice, hqueued.symm⟩, _, hslot, ?_⟩
  have hcipher := hstraight.clientCipher (by rw [hstate]; rfl) (hr1 ▸ h1) (hr2 ▸ h2) km
  rwa [hcsid, hssid] at hcipher

/-- The greeting of a client in three packets, with a retransmission scan and a ping between
them. -/
def piecewise : List (Event (Plain × List Bytes)) :=
  let said := ClientKeyMethod2.basic.greeting
  let packet (id : UInt32) (payload : Bytes) : Event (Plain × List Bytes) :=
    .control recordedEnv (clientPacket .controlV1 0 id payload) none
  [packet 1 (said.take 100), .retransmit recordedEnv, packet 2 ((said.drop 100).take 100),
    .ping recordedEnv, packet 3 (said.drop 200)]

theorem client_gets_connected_piecewise :
    let w := run (step plainServer.recording plainAddr)
      (started plainServer.recording recordedOpening) piecewise
    w.sess.state = .established ∧
      (∃ ip, w.sess.assignedIp = some (.v4 ip) ∧
        [w.account.keyReply plainServer, w.account.pushReply plainServer ip w.sess.assignedIpV6] <+:
          w.queued) ∧
      ∃ slot, (installs w.log).head? = some slot ∧
        clientCipher plainServer.prims .basic 5 7 w.queued.flatten = some slot.cipher.mirror := by
  have hfacts :
      AllMeet (step plainServer.recording plainAddr) (GoesWell plainServer.recording)
        (started plainServer.recording recordedOpening) piecewise ∧
      heardPlaintext plainServer.recording plainAddr
        (started plainServer.recording recordedOpening) piecewise =
          ClientKeyMethod2.basic.greeting ∧
      (run (step plainServer.recording plainAddr) (started plainServer.recording recordedOpening)
        piecewise).sess.state ≠ .handshaking := by
    decide +kernel
  obtain ⟨hwell, hheard, hover⟩ := hfacts
  exact (client_gets_connected plainServer plainAddr recordedOpening piecewise .basic
    (fun _ _ => rfl) ClientKeyMethod2.sendable_basic rfl rfl rfl hwell
    (hheard ▸ List.prefix_refl _)).2 hheard hover

end Javs
