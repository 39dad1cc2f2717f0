import Javs.Lib.Reassembly
import Javs.Outward
import Javs.Switchover

/-!
The control channel delivers.

A control packet that has a packet id and was handed to the transport is kept until the client
acknowledges it, and sent again while it is kept; after six attempts, failed sends included, it is
given up. The client acknowledges what it has received, and puts what it has received in order by
the packet ids. So whatever the network loses, repeats or reorders, the client reads the packets in
the order in which the session has built them; what it lacks is still kept, or has been given up.
And unless a send has failed, those packets carry all that the TLS contexts have put out.
-/

namespace Javs

open Lib Proc Bytes

variable {Conn : Type} {S : VpnServer Conn}

/-! ### The mail of a session -/

def tracked (log : List Effect) : List ControlPacket :=
  (sentPackets log).filter (·.packetId.isSome)

def Effect.drainedOf (ctx : Ctx) : Effect → Bytes
  | .drained c out => if c = ctx then out else []
  | _ => []

def Effect.carriedOf (ctx : Ctx) : Effect → Bytes
  | .frag c pkt => if c = ctx then pkt.payload else []
  | _ => []

/-- The bytes that have been taken out of a TLS context. -/
def drainedFrom (ctx : Ctx) (log : List Effect) : Bytes := log.flatMap (Effect.drainedOf ctx)

/-- The bytes of a TLS context that packets have been built around. -/
def carriedFrom (ctx : Ctx) (log : List Effect) : Bytes := log.flatMap (Effect.carriedOf ctx)

/-- The retransmit queue, and what the log says about packets and their bytes. -/
structure Mail where
  queue : List Unacked
  log : List Effect

def World.mail (w : World Conn) : Mail := ⟨w.sess.unacked, post w.log⟩

section Log

variable (log : List Effect)

lemma filterMap_post {β : Type} {f : Effect → Option β}
    (hf : ∀ e : Effect, e.isPostal = false → f e = none) :
    (post log).filterMap f = log.filterMap f := by
  rw [post, List.filterMap_filter]
  refine List.filterMap_congr fun e _ => ?_
  rcases he : e.isPostal
  · exact (hf e he).symm
  · rfl

lemma flatMap_post {β : Type} {f : Effect → List β}
    (hf : ∀ e : Effect, e.isPostal = false → f e = []) : (post log).flatMap f = log.flatMap f := by
  induction log with
  | nil => rfl
  | cons e log ih =>
    rcases he : e.isPostal
    · rw [post, List.filter_cons_of_neg (by simp [he]), List.flatMap_cons, hf e he]
      exact ih
    · rw [post, List.filter_cons_of_pos he, List.flatMap_cons, List.flatMap_cons]
      exact congrArg _ ih

lemma built_post : built (post log) = built log :=
  filterMap_post log fun e he => by cases e <;> first | rfl | cases he

lemma tracked_post : tracked (post log) = tracked log := by
  have hsent : sentPackets (post log) = sentPackets log :=
    filterMap_post log fun e he => by cases e <;> first | rfl | cases he
  rw [tracked, hsent, tracked]

lemma ackedIds_post : ackedIds (post log) = ackedIds log := by
  have hacked : (post log).filterMap Effect.acked? = log.filterMap Effect.acked? :=
    filterMap_post log fun e he => by cases e <;> first | rfl | cases he
  rw [ackedIds, hacked, ackedIds]

lemma drainedFrom_post (ctx : Ctx) : drainedFrom ctx (post log) = drainedFrom ctx log :=
  flatMap_post log fun e he => by cases e <;> first | rfl | cases he

lemma carriedFrom_post (ctx : Ctx) : carriedFrom ctx (post log) = carriedFrom ctx log :=
  flatMap_post log fun e he => by cases e <;> first | rfl | cases he

end Log

lemma tracked_append (log log' : List Effect) :
    tracked (log ++ log') = tracked log ++ tracked log' := by
  rw [tracked, sentPackets_append, List.filter_append]
  rfl

lemma ackedIds_append (log log' : List Effect) :
    ackedIds (log ++ log') = ackedIds log ++ ackedIds log' := by
  simp [ackedIds]

lemma drainedFrom_append (ctx : Ctx) (log log' : List Effect) :
    drainedFrom ctx (log ++ log') = drainedFrom ctx log ++ drainedFrom ctx log' :=
  List.flatMap_append

lemma carriedFrom_append (ctx : Ctx) (log log' : List Effect) :
    carriedFrom ctx (log ++ log') = carriedFrom ctx log ++ carriedFrom ctx log' :=
  List.flatMap_append

/-! ### The invariant -/

def ControlPacket.WaitsIn (pkt : ControlPacket) (queue : List Unacked) : Prop :=
  ∃ u ∈ queue, pkt.packetId = some u.packetId ∧ u.encoded = pkt.encode

def ControlPacket.AckedIn (pkt : ControlPacket) (log : List Effect) : Prop :=
  ∃ pid ∈ ackedIds log, pkt.packetId = some pid

/-- Where the packets and the bytes are: `gone` are the packets given up, and `owed` is what has
been taken out of a context and has still to be put into packets. -/
structure Posted (gone : List Unacked) (owed : Ctx → Bytes) (m : Mail) : Prop where
  sent : (tracked m.log).Sublist (built m.log)
  carried : tracked m.log = built m.log →
    ∀ ctx, carriedFrom ctx m.log ++ owed ctx = drainedFrom ctx m.log
  kept : ∀ pkt ∈ tracked m.log,
    pkt.AckedIn m.log ∨ pkt.WaitsIn m.queue ∨ pkt.WaitsIn gone

abbrev settled : Ctx → Bytes := fun _ => []

def owing (ctx : Ctx) (out : Bytes) : Ctx → Bytes := fun c => if ctx = c then out else []

lemma owing_nil (ctx : Ctx) : owing ctx [] = settled := by
  funext c
  exact ite_self _

lemma owing_append (ctx : Ctx) (out out' : Bytes) (c : Ctx) :
    owing ctx (out ++ out') c = owing ctx out c ++ owing ctx out' c := by
  unfold owing
  split <;> rfl

section Posted

variable {gone : List Unacked} {owed rest : Ctx → Bytes} {m : Mail} {pkt : ControlPacket}

lemma ControlPacket.WaitsIn.mono {q q' : List Unacked} (h : pkt.WaitsIn q) (hq : q ⊆ q') :
    pkt.WaitsIn q' := by
  obtain ⟨u, hu, hpid⟩ := h
  exact ⟨u, hq hu, hpid⟩

lemma ControlPacket.AckedIn.append {log : List Effect} (h : pkt.AckedIn log)
    (es : List Effect) : pkt.AckedIn (log ++ es) := by
  obtain ⟨pid, hpid, hid⟩ := h
  refine ⟨pid, ?_, hid⟩
  rw [ackedIds_append]
  exact List.mem_append_left _ hpid

lemma Posted.aside (h : Posted gone owed m) {e : Effect} {q : List Unacked}
    (ht : tracked [e] = []) (hb : built [e] = [])
    (howed : ∀ ctx, rest ctx = owed ctx ++ e.drainedOf ctx)
    (hq : ∀ p : ControlPacket, p.WaitsIn m.queue → p.AckedIn (m.log ++ [e]) ∨ p.WaitsIn q) :
    Posted gone rest ⟨q, m.log ++ [e]⟩ := by
  have htracked : tracked (m.log ++ [e]) = tracked m.log := by
    rw [tracked_append, ht, List.append_nil]
  have hbuilt : built (m.log ++ [e]) = built m.log := by
    rw [built_append, hb, List.append_nil]
  have hcarried (ctx : Ctx) : e.carriedOf ctx = [] := by
    cases e <;> first | rfl | cases hb
  refine ⟨?_, fun hall ctx => ?_, fun p hp => ?_⟩
  · rw [htracked, hbuilt]
    exact h.sent
  · rw [htracked, hbuilt] at hall
    rw [carriedFrom_append, drainedFrom_append, ← h.carried hall ctx, howed]
    simp [carriedFrom, drainedFrom, hcarried]
  -- the queue may have lost entries, but only to acknowledgements
  · rw [htracked] at hp
    rcases h.kept p hp with hack | hwait | hgone
    · exact .inl (hack.append _)
    · exact (hq p hwait).imp_right .inl
    · exact .inr (.inr hgone)

lemma Posted.drain (h : Posted gone settled m) (ctx : Ctx) (out : Bytes) :
    Posted gone (owing ctx out)
      { m with log := m.log ++ [.drained ctx out] } :=
  h.aside rfl rfl (fun _ => rfl) fun _ hp => .inr hp

lemma Posted.sendAck (h : Posted gone owed m) (hid : pkt.packetId = none) :
    Posted gone owed { m with log := m.log ++ [.sent pkt] } :=
  h.aside (by simp [tracked, sentPackets, Effect.sent?, hid]) rfl
    (fun _ => (List.append_nil _).symm) fun _ hp => .inr hp

lemma Posted.acked (h : Posted gone settled m) (acks : List UInt32) :
    Posted gone settled ⟨m.queue.filter fun u => !acks.contains u.packetId,
      m.log ++ [.acked acks]⟩ := by
  refine h.aside rfl rfl (fun _ => rfl) ?_
  rintro p ⟨u, hu, hid, henc⟩
  by_cases ha : u.packetId ∈ acks
  · refine .inl ⟨u.packetId, ?_, hid⟩
    rw [ackedIds_append]
    refine List.mem_append_right _ ?_
    simpa [ackedIds, Effect.acked?] using ha
  · exact .inr ⟨u, List.mem_filter.mpr ⟨hu, by simpa using ha⟩, hid, henc⟩

/-- A packet that carries what `e` says is built. -/
structure Builds (e : Effect) (pkt : ControlPacket) : Prop where
  built : built [e] = [pkt]
  tracked : tracked [e] = []
  drained : ∀ ctx, e.drainedOf ctx = []

lemma builds_frag (ctx : Ctx) (pkt : ControlPacket) : Builds (.frag ctx pkt) pkt :=
  ⟨rfl, rfl, fun _ => rfl⟩

lemma builds_reset (pkt : ControlPacket) : Builds (.reset pkt) pkt :=
  ⟨rfl, rfl, fun _ => rfl⟩

lemma Posted.lose (h : Posted gone owed m) {e : Effect} (he : Builds e pkt) :
    Posted gone settled { m with log := m.log ++ [e] } where
  sent := by
    rw [tracked_append, built_append, he.tracked, List.append_nil]
    exact h.sent.trans (List.sublist_append_left _ _)
  carried hall := by
    rw [tracked_append, built_append, he.tracked, he.built, List.append_nil] at hall
    have hle := h.sent.length_le
    rw [hall, List.length_append, List.length_singleton] at hle
    omega
  kept p hp := by
    rw [tracked_append, he.tracked, List.append_nil] at hp
    exact (h.kept p hp).imp_left (·.append _)

lemma Posted.deliver (h : Posted gone owed m) {e : Effect} (he : Builds e pkt) {pid : UInt32}
    (hid : pkt.packetId = some pid) (now : ℕ)
    (howed : ∀ ctx, owed ctx = e.carriedOf ctx ++ rest ctx) :
    Posted gone rest ⟨m.queue ++ [⟨pid, pkt.encode, now, 1⟩], m.log ++ [e, .sent pkt]⟩ := by
  have htracked : tracked (m.log ++ [e, .sent pkt]) = tracked m.log ++ [pkt] := by
    rw [tracked_append, show [e, .sent pkt] = [e] ++ [.sent pkt] from rfl, tracked_append,
      he.tracked]
    simp [tracked, sentPackets, Effect.sent?, hid]
  have hbuilt : built (m.log ++ [e, .sent pkt]) = built m.log ++ [pkt] := by
    rw [built_append, show [e, .sent pkt] = [e] ++ [.sent pkt] from rfl, built_append, he.built]
    rfl
  refine ⟨?_, fun hall ctx => ?_, fun p hp => ?_⟩
  · rw [htracked, hbuilt]
    exact h.sent.append (.refl _)
  · rw [htracked, hbuilt, List.append_left_inj] at hall
    have hbefore := h.carried hall ctx
    rw [howed, ← List.append_assoc] at hbefore
    have hd : drainedFrom ctx [e, .sent pkt] = [] := by
      rw [drainedFrom, List.flatMap_cons, he.drained]
      rfl
    have hc : carriedFrom ctx [e, .sent pkt] = e.carriedOf ctx := by
      rw [carriedFrom, List.flatMap_cons]
      exact List.append_nil _
    rw [carriedFrom_append, drainedFrom_append, hc, hd, hbefore, List.append_nil]
  · rw [htracked, List.mem_append, List.mem_singleton] at hp
    rcases hp with hp | rfl
    · rcases h.kept p hp with hack | hq | hgone
      · exact .inl (hack.append _)
      · exact .inr (.inl (hq.mono (List.subset_append_left _ _)))
      · exact .inr (.inr hgone)
    · exact .inr (.inl ⟨_, List.mem_append_right _ (List.mem_singleton_self _), hid, rfl⟩)

end Posted

/-! ### Handlers -/

section Handlers

variable {α : Type} {gone : List Unacked} {w : World Conn}

def World.Settled (gone : List Unacked) (w : World Conn) : Prop := Posted gone settled w.mail

/-- The program leaves nothing owed, failing or not. -/
abbrev Posts (gone : List Unacked) (m : M Conn α) : Prop :=
  Safe (World.Settled gone) (fun _ => False) m

abbrev PostsAt (gone : List Unacked) (m : M Conn α) (w : World Conn) : Prop :=
  SafeAt (World.Settled gone) (fun _ => False) m w

lemma mail_frame {v : World Conn} (h : v.frame = w.frame) : v.mail = w.mail :=
  congrArg (fun f : Outward × List Effect => (⟨f.1.queue, f.2⟩ : Mail)) h

lemma World.Settled.congr {v : World Conn} (h : w.Settled gone) (hv : v.mail = w.mail) :
    v.Settled gone := by
  unfold World.Settled
  rwa [hv]

lemma postsAt_of_mail {m : M Conn α} (hw : w.Settled gone) (h : KeepsAt World.mail m w) :
    PostsAt gone m w :=
  ⟨hw.congr h, fun _ _ => id⟩

lemma posts_of_mail {m : M Conn α} (h : Keeps World.mail m) : Posts gone m :=
  fun w hw => postsAt_of_mail hw (h w)

lemma posts_of_frame {m : M Conn α} (h : Keeps World.frame m) : Posts gone m :=
  posts_of_mail fun w => mail_frame (h w)

lemma mail_tell {v : World Conn} {e : Effect} (he : e.isPostal = false)
    (hqueue : v.sess.unacked = w.sess.unacked) (hlog : v.log = w.log ++ [e]) :
    v.mail = w.mail := by
  have hpost : post v.log = post w.log := by
    rw [hlog, post_append, post, post, List.filter_singleton, he]
    exact List.append_nil _
  rw [World.mail, hqueue, hpost, World.mail]

variable (S)

lemma sendAndTrack_mail (pkt : ControlPacket) (w : World Conn) :
    (sendAndTrack S pkt w).2.mail = w.mail ∧ (sendAndTrack S pkt w).1.isOk = false ∨
      (sendAndTrack S pkt w).2.mail = ⟨w.sess.unacked ++
          (pkt.packetId.map (⟨·, pkt.encode, w.env.now, 1⟩)).toList, post w.log ++ [.sent pkt]⟩ ∧
        (sendAndTrack S pkt w).1 = .ok () := by
  obtain ⟨wire, pid, -, hwrap⟩ := wrapForWire_apply S pkt w
  rw [sendAndTrack, bind_ok hwrap]
  rcases transportSend_apply wire { w with sess := { w.sess with tlsAuthPidOut := pid } } with
    ⟨-, e, hsend⟩ | ⟨-, hsend⟩
  · rw [bind_error hsend]
    exact .inl ⟨rfl, rfl⟩
  · rw [bind_ok hsend]
    have hpost : post (w.log ++ [.wire wire, .sent pkt]) = post w.log ++ [.sent pkt] :=
      post_append _ _
    rcases hid : pkt.packetId with _ | p
    · refine .inr ⟨?_, rfl⟩
      simp [M.emit, World.mail, hpost]
    · refine .inr ⟨?_, rfl⟩
      simp [M.emit, World.mail, Session.recordSent, hpost]

variable {e : Effect} in
lemma sendAndTrack_posted {owed rest : Ctx → Bytes} {m : Mail} (h : Posted gone owed m)
    (howed : ∀ ctx, owed ctx = e.carriedOf ctx ++ rest ctx) {pkt : ControlPacket}
    (he : Builds e pkt) (hid : pkt.packetId.isSome)
    (hw : w.mail = { m with log := m.log ++ [e] }) :
    match sendAndTrack S pkt w with
    | (.ok _, v) => Posted gone rest v.mail
    | (.error _, v) => Posted gone settled v.mail := by
  obtain ⟨pid, hpid⟩ := Option.isSome_iff_exists.mp hid
  have hsent := sendAndTrack_mail S pkt w
  rcases hs : sendAndTrack S pkt w with ⟨_ | _, v⟩ <;> rw [hs] at hsent
  · rcases hsent with ⟨hv, -⟩ | ⟨-, hok⟩
    -- a packet that is built and not sent closes the account of bytes
    · show Posted gone settled v.mail
      rw [hv, hw]
      exact h.lose he
    · cases hok
  · rcases hsent with ⟨-, hok⟩ | ⟨hv, -⟩
    · cases hok
    · show Posted gone rest v.mail
      have hqueue : w.sess.unacked = m.queue := congrArg Mail.queue hw
      have hlog : post w.log = m.log ++ [e] := congrArg Mail.log hw
      rw [hv, hqueue, hlog, hpid, List.append_assoc]
      exact h.deliver he hpid w.env.now howed

lemma sendChunks_posted (ctx : Ctx) (keyId : UInt8) (cs : List Bytes)
    (h : Posted gone (owing ctx cs.flatten) w.mail) :
    World.Settled gone (forM cs (sendChunk S ctx keyId) w).2 := by
  induction cs generalizing w with
  | nil =>
    rw [List.flatten_nil, owing_nil] at h
    exact h
  | cons c cs ih =>
    obtain ⟨pkt, hpkt⟩ : ∃ pkt, pkt = (w.sess.makeControl keyId c).1 := ⟨_, rfl⟩
    obtain ⟨v, hv⟩ : ∃ v : World Conn, v = { w with
        sess := (w.sess.makeControl keyId c).2, log := w.log ++ [.frag ctx pkt] } := ⟨_, rfl⟩
    have hmail : v.mail = { w.mail with log := w.mail.log ++ [.frag ctx pkt] } := by
      rw [hv]
      exact congrArg (Mail.mk _) (post_append _ _)
    have howed (c' : Ctx) : owing ctx (c :: cs).flatten c' =
        (Effect.frag ctx pkt).carriedOf c' ++ owing ctx cs.flatten c' := by
      rw [List.flatten_cons, owing_append, hpkt]
      rfl
    have hid : pkt.packetId.isSome := by
      rw [hpkt]
      rfl
    have hsend := sendAndTrack_posted S h howed (builds_frag ctx pkt) hid hmail
    have hone : sendChunk S ctx keyId c w = sendAndTrack S pkt v := by
      rw [hv, hpkt]
      rfl
    rw [List.forM_cons]
    -- if a send fails the loop ends, and what is left is in no packet
    rcases hs : sendAndTrack S pkt v with ⟨e | _, u⟩ <;> rw [hs] at hsend hone
    · rw [bind_error hone]
      exact hsend
    · rw [bind_ok hone]
      exact ih hsend

lemma flush_posted (hw : w.Settled gone) (ctx : Ctx) (keyId : UInt8) (out : Bytes) {v : World Conn}
    (hqueue : v.sess.unacked = w.sess.unacked) (hlog : v.log = w.log ++ [.drained ctx out]) :
    World.Settled gone
      (forM (chunks maxTlsPayloadPerControl out) (sendChunk S ctx keyId) v).2 := by
  have hmail : v.mail = { w.mail with log := w.mail.log ++ [.drained ctx out] } := by
    rw [World.mail, hqueue, hlog, post_append]
    rfl
  refine sendChunks_posted S ctx keyId _ ?_
  rw [flatten_chunks (by decide), hmail]
  exact hw.drain ctx out

lemma World.Settled.drainNone (hw : w.Settled gone) (ctx : Ctx) {v : World Conn}
    (hqueue : v.sess.unacked = w.sess.unacked) (hlog : v.log = w.log ++ [.drained ctx []]) :
    v.Settled gone := by
  have hmail : v.mail = { w.mail with log := w.mail.log ++ [.drained ctx []] } := by
    rw [World.mail, hqueue, hlog, post_append]
    rfl
  have h := hw.drain ctx []
  rw [owing_nil, ← hmail] at h
  exact h

lemma posts_flushOutgoing : Posts gone (flushOutgoing S) := by
  intro w hw
  refine ⟨?_, fun _ _ => id⟩
  rw [flushOutgoing, get_bind]
  obtain ⟨out, hout⟩ : ∃ out, out = (w.sess.tls.takeOutgoing S.rustls).2 := ⟨_, rfl⟩
  obtain ⟨v, hv⟩ : ∃ v, v = { w with
      sess := { w.sess with tls := (w.sess.tls.takeOutgoing S.rustls).1 }
      log := w.log ++ [Effect.drained .main out] } := ⟨_, rfl⟩
  have hqueue : v.sess.unacked = w.sess.unacked := by rw [hv]
  have hlog : v.log = w.log ++ [.drained .main out] := by rw [hv]
  dsimp only
  rw [put_bind, ← hout, ← hv]
  split
  · exact flush_posted S hw .main _ out hqueue hlog
  rename_i hnone
  have hnil : out = [] := by simpa using hnone
  subst hnil
  have hsettled := hw.drainNone .main hqueue hlog
  split
  · have hsend := sendAndTrack_of_none S
      (show (w.sess.makeAck w.sess.activeKeyId w.sess.pendingAcks).packetId = none from rfl)
    rw [modify_bind, ← hsend]
    generalize hack : w.sess.makeAck w.sess.activeKeyId w.sess.pendingAcks = ack
    have hid : ack.packetId = none := by
      rw [← hack]
      rfl
    obtain ⟨u, hu⟩ : ∃ u : World Conn, u = { v with
        sess := { v.sess with pendingAcks := [] }, log := v.log ++ [.ack ack] } := ⟨_, rfl⟩
    have hmail : u.mail = v.mail := by
      rw [hu]
      exact mail_tell rfl rfl rfl
    rw [← hu]
    rcases sendAndTrack_mail S ack u with ⟨hsame, -⟩ | ⟨hsent, -⟩
    · exact hsettled.congr (hsame.trans hmail)
    · have hsent' : (sendAndTrack S ack u).2.mail =
          { v.mail with log := v.mail.log ++ [.sent ack] } := by
        rw [hsent, ← hmail, hid]
        simp [World.mail]
      unfold World.Settled
      rw [hsent']
      exact hsettled.sendAck hid
  · exact hsettled

lemma posts_flushRekeyOutgoing : Posts gone (flushRekeyOutgoing S) := by
  rw [flushRekeyOutgoing_eq]
  refine safe_get_bind fun w hw => ?_
  rcases w.sess.rekey with _ | rk
  · exact safe_pure _ w hw
  refine ⟨?_, fun _ _ => id⟩
  dsimp only
  rw [put_bind]
  split
  · rename_i hnone
    have hnil : (rk.tls.takeOutgoing S.rustls).2 = [] := by simpa using hnone
    rw [hnil]
    exact hw.drainNone _ rfl rfl
  · exact flush_posted S hw _ _ _ rfl rfl

lemma posts_finishRekey : Posts gone (finishRekey : M Conn Unit) := by
  rw [finishRekey_eq]
  refine safe_get_bind fun w hw => ?_
  rcases w.sess.rekey with _ | rk
  · exact safe_pure _ w hw
  dsimp only
  split
  · exact safeAt_set (hw.congr (mail_tell rfl rfl rfl))
  · exact safe_pure _ w hw

lemma sendReset_posted (hw : w.Settled gone) {pkt : ControlPacket} (hid : pkt.packetId.isSome)
    {v : World Conn} (hqueue : v.sess.unacked = w.sess.unacked)
    (hlog : v.log = w.log ++ [.reset pkt]) : World.Settled gone (sendAndTrack S pkt v).2 := by
  have hmail : v.mail = { w.mail with log := w.mail.log ++ [.reset pkt] } := by
    rw [World.mail, hqueue, hlog, post_append]
    rfl
  have howed (c : Ctx) : settled c = (Effect.reset pkt).carriedOf c ++ settled c := rfl
  have hsend := sendAndTrack_posted S hw howed (builds_reset pkt) hid hmail
  rcases hs : sendAndTrack S pkt v with ⟨_ | _, u⟩ <;> rw [hs] at hsend <;> exact hsend

lemma posts_handleRekeyControl (ctrl : ControlPacket) : Posts gone (handleRekeyControl S ctrl) := by
  refine safe_get_bind fun w hw => ?_
  rcases w.sess.rekey with _ | rk
  · exact safe_pure _ w hw
  dsimp only
  rcases rk.tls.feed S.rustls ctrl.payload with ⟨tls, fed⟩
  refine safeAt_bind (safeAt_set (hw.congr (mail_tell rfl rfl rfl))) fun _ => ?_
  refine safe_bind (posts_of_frame (frame_context _ _)) fun _ => ?_
  have hrest : Posts gone (do
      driveRekeyControlPlane S
      flushRekeyOutgoing S
      finishRekey) :=
    safe_bind (posts_of_frame (frame_driveRekeyControlPlane S)) fun _ =>
      safe_bind (posts_flushRekeyOutgoing S) fun _ => posts_finishRekey
  split
  · refine safe_bind (posts_of_mail (keeps_modify fun _ => mail_tell rfl rfl rfl)) fun _ => hrest
  · exact hrest

lemma posts_handleMainControl (addr : SocketAddr) (ctrl : ControlPacket) :
    Posts gone (handleMainControl S addr ctrl) := by
  refine safe_get_bind fun w hw => ?_
  rcases w.sess.tls.feed S.rustls ctrl.payload with ⟨tls, fed⟩
  refine safeAt_bind (safeAt_set (hw.congr (mail_tell rfl rfl rfl))) fun _ => ?_
  refine safe_bind (posts_of_frame (frame_context _ _)) fun _ => ?_
  have hrest : Posts gone (do driveControlPlane S addr; flushOutgoing S) :=
    safe_bind (posts_of_frame (frame_driveControlPlane S addr)) fun _ => posts_flushOutgoing S
  dsimp only
  split
  · refine safe_bind (posts_of_mail (keeps_modify fun v => mail_tell rfl ?_ rfl)) fun _ => hrest
    unfold Session.finalizeKeys
    split <;> rfl
  · exact hrest

lemma posts_dispatch (addr : SocketAddr) (ctrl : ControlPacket) :
    Posts gone (dispatch S addr ctrl) := by
  rw [dispatch]
  split
  · refine safe_get_bind fun w hw => ?_
    split
    · exact posts_handleRekeyControl S ctrl w hw
    · exact posts_handleMainControl S addr ctrl w hw
  · refine safe_get_bind fun w hw => ?_
    split
    · exact safe_pure _ w hw
    split
    · exact safe_pure _ w hw
    split
    · exact safe_throw id w hw
    · exact ⟨sendReset_posted S hw rfl rfl rfl, fun _ _ => id⟩
  · exact safe_pure _

lemma posts_acceptControl (ctrl : ControlPacket) (replayPid : Option UInt32) :
    Posts gone (acceptControl ctrl replayPid : M Conn Unit) := by
  refine safe_bind (posts_of_mail (keeps_modify fun _ => rfl)) fun _ => ?_
  refine safe_bind (posts_of_mail ?_) fun _ => safe_bind ?_ fun _ => posts_of_mail ?_
  · rcases replayPid with _ | pid
    · exact keeps_pure _
    · intro w
      unfold KeepsAt
      rw [checkReplay_some]
      split <;> rfl
  · unfold processAcks
    split
    · exact safe_pure _
    · rename_i hne
      refine safe_modify fun w hw => ?_
      have hmail : World.mail { w with sess := w.sess.processAcks ctrl.acks
                                       log := w.log ++ [.acked ctrl.acks] } =
          ⟨w.mail.queue.filter fun u => !ctrl.acks.contains u.packetId,
            w.mail.log ++ [.acked ctrl.acks]⟩ := by
        rw [World.mail, post_append, Session.processAcks, if_neg hne]
        rfl
      unfold World.Settled
      rw [hmail]
      exact Posted.acked hw ctrl.acks
  · rcases ctrl.packetId with _ | pid
    · exact keeps_pure _
    · refine keeps_modify fun w => ?_
      unfold Session.noteReceived
      split <;> rfl

/-! ### The other events -/

lemma mail_transportSend (bytes : Bytes) :
    Keeps World.mail (transportSend bytes : M Conn Unit) := by
  intro w
  unfold KeepsAt
  rcases transportSend_apply bytes w with ⟨-, e, h⟩ | ⟨-, h⟩ <;> rw [h]
  · rfl
  · exact mail_tell rfl rfl rfl

lemma mail_buildDataPacket (plaintext : Bytes) :
    Keeps World.mail (buildDataPacket S plaintext) := by
  refine keeps_get_bind fun w => ?_
  split
  · exact keeps_throw _ w
  · refine keepsAt_bind (keepsAt_set (mail_tell rfl rfl rfl)) fun _ => ?_
    exact keeps_bind (keeps_ofExcept _) fun _ => keeps_pure _

lemma mail_forwardLocked (ipPkt : Bytes) : Keeps World.mail (forwardLocked S ipPkt) := by
  refine keeps_get_bind fun w => ?_
  split
  · exact keeps_pure _ w
  · exact keeps_bind (mail_buildDataPacket S _) (fun _ => mail_transportSend _) w

lemma mail_pingTick : Keeps World.mail (pingTick S) := by
  refine keeps_get_bind fun w => ?_
  split
  · exact keeps_pure _ w
  · exact keeps_bind (mail_buildDataPacket S _) (fun _ => mail_transportSend _) w

lemma mail_decryptAndForward (pkt : Bytes) : Keeps World.mail (decryptAndForward S pkt) := by
  intro w
  unfold KeepsAt
  have hopened (dp : DataPacketV2) (i : Fin 2) (slot : KeySlot) :
      (World.opened w pkt dp i slot).mail = w.mail := mail_tell rfl rfl rfl
  rcases decryptAndForward_cases (S := S) w pkt with
    ⟨e, h⟩ | ⟨dp, i, slot, plaintext, -, h | h⟩ <;> rw [h]
  · exact hopened dp i slot
  · refine Eq.trans ?_ (hopened dp i slot)
    exact mail_tell (e := .tun pkt plaintext) rfl rfl rfl

lemma posts_rekeyTick : Posts gone (rekeyTick S) := by
  refine safe_get_bind fun w hw => ?_
  split
  · exact safe_pure _ w hw
  split
  · exact safe_pure _ w hw
  split
  · exact safe_pure _ w hw
  · exact ⟨sendReset_posted S hw rfl rfl rfl, fun _ _ => id⟩

lemma posts_shutdownClient : Posts gone (shutdownClient S) := by
  refine safe_get_bind fun w hw => ?_
  split
  · exact safe_pure _ w hw
  · exact safe_bind (posts_of_frame (frame_sendPlaintext S _)) (fun _ => posts_flushOutgoing S) w hw

end Handlers

/-! ### Giving up -/

/-- The packets of the queue that the next visit of the retransmit task gives up. -/
def Session.spent (s : Session Conn) : List Unacked :=
  s.unacked.filter fun u => controlMaxAttempts ≤ u.attempts

/-- The packets an event gives up. -/
def givesUp (w : World Conn) : Event Conn → List Unacked
  | .retransmit _ => w.sess.spent
  | _ => []

lemma staleEntry_same (now baseRto : ℕ) (u : Unacked) :
    (Session.staleEntry now baseRto u).1.packetId = u.packetId ∧
      (Session.staleEntry now baseRto u).1.encoded = u.encoded := by
  unfold Session.staleEntry
  dsimp only
  split <;> exact ⟨rfl, rfl⟩

lemma waitsIn_stale {pkt : ControlPacket} {s : Session Conn} (h : pkt.WaitsIn s.unacked)
    (now baseRto : ℕ) :
    pkt.WaitsIn s.spent ∨ pkt.WaitsIn (s.staleUnacked now baseRto).1.unacked := by
  obtain ⟨u, hu, hid, henc⟩ := h
  rcases Nat.lt_or_ge u.attempts controlMaxAttempts with hlt | hge
  · obtain ⟨hpid, hbytes⟩ := staleEntry_same now baseRto u
    refine .inr ⟨(Session.staleEntry now baseRto u).1, ?_, by rw [hpid, hid], by rw [hbytes, henc]⟩
    simp only [Session.staleUnacked, List.map_map]
    exact List.mem_map_of_mem (List.mem_filter.mpr ⟨hu, by simpa using hlt⟩)
  · exact .inl ⟨u, List.mem_filter.mpr ⟨hu, by simpa using hge⟩, hid, henc⟩

section Step

variable {gone : List Unacked} {w : World Conn}

lemma Posted.giveUp {owed : Ctx → Bytes} {m : Mail} (h : Posted gone owed m)
    {q more : List Unacked}
    (hq : ∀ p : ControlPacket, p.WaitsIn m.queue → p.WaitsIn more ∨ p.WaitsIn q) :
    Posted (gone ++ more) owed { m with queue := q } := by
  refine ⟨h.sent, h.carried, fun p hp => ?_⟩
  rcases h.kept p hp with hack | hwait | hgone
  · exact .inl hack
  · rcases hq p hwait with hmore | hwait
    · exact .inr (.inr (hmore.mono (List.subset_append_right _ _)))
    · exact .inr (.inl hwait)
  · exact .inr (.inr (hgone.mono (List.subset_append_left _ _)))

lemma retransmitTick_settled (S : VpnServer Conn) (hw : w.Settled gone) :
    World.Settled (gone ++ w.sess.spent) (retransmitTick S w).2 := by
  obtain ⟨v, hv⟩ : ∃ v, v = { w with
      sess := (w.sess.staleUnacked w.env.now controlBaseRto).1 } := ⟨_, rfl⟩
  obtain ⟨stale, hstale⟩ : ∃ stale, stale = (w.sess.staleUnacked w.env.now controlBaseRto).2 :=
    ⟨_, rfl⟩
  have htick : retransmitTick S w = (do
      let wires ← rewrap S stale
      forM wires fun bytes => M.attempt (transportSend bytes)) v := by
    rw [hv, hstale]
    rfl
  -- the scan gives up the packets that have been sent six times, and keeps the others
  have hscan : v.Settled (gone ++ w.sess.spent) := by
    rw [hv]
    exact Posted.giveUp hw fun p hp => waitsIn_stale hp _ _
  rw [htick, bind_ok (rewrap_eq S stale v)]
  have hattempt (b : Bytes) : Keeps World.mail (M.attempt (transportSend b) : M Conn Unit) := by
    refine keeps_tryCatch (mail_transportSend b) fun e => ?_
    rcases e with _ | _
    · exact keeps_pure _
    · exact keeps_throw _
  exact hscan.congr (keeps_forM (fun b _ => hattempt b) { v with sess := _ })

/-- **One event.** -/
lemma settled_step (S : VpnServer Conn) (addr : SocketAddr) (hw : w.Settled gone) (e : Event Conn) :
    (step S addr w e).Settled (gone ++ givesUp w e) := by
  have hrest {m : M Conn Unit} (h : Posts gone m) (env : Env Conn) :
      World.Settled (gone ++ []) (m { w with env }).2 := by
    rw [List.append_nil]
    exact (h { w with env } hw).1
  cases e with
  | control env ctrl replayPid =>
    exact hrest (safe_bind (posts_acceptControl ctrl replayPid) fun _ => posts_dispatch S addr ctrl)
      env
  | data env pkt => exact hrest (posts_of_mail (mail_decryptAndForward S pkt)) env
  | tun env ipPkt => exact hrest (posts_of_mail (mail_forwardLocked S ipPkt)) env
  | ping env => exact hrest (posts_of_mail (mail_pingTick S)) env
  | rekey env => exact hrest (posts_rekeyTick S) env
  | retransmit env => exact retransmitTick_settled (w := { w with env }) S hw
  | shutdown env => exact hrest (posts_shutdownClient S) env
  | shared tab =>
    show World.Settled (gone ++ []) { w with tab }
    rw [List.append_nil]
    exact hw

lemma settled_started (S : VpnServer Conn) (o : Opening Conn) : (started S o).Settled [] := by
  refine sendReset_posted (w := ⟨newSession o.ctrl o.replayPid o.peerId o.transport o.conn o.env,
    o.tab, o.env, []⟩) S ?_ rfl rfl rfl
  refine ⟨.slnil, fun _ _ => rfl, ?_⟩
  intro p hp
  cases hp

end Step

/-! ### The two parties -/

def givenUp (S : VpnServer Conn) (addr : SocketAddr) (s : Link Conn) (es : List (LinkEvent Conn)) :
    List Unacked :=
  (trace (linkStep S addr) s es).flatMap fun x =>
    match x.2 with
    | .server e => givesUp x.1.server e
    | .deliver _ => []

/-- The packets a client has received, in the order of their ids, up to the first one missing. -/
def putInOrder (got : List ControlPacket) : List ControlPacket :=
  inOrder (fun n => got.find? fun p => p.packetId = some (UInt32.ofNat n)) 0 got.length

section Link

variable {s : Link Conn}

lemma settled_run (S : VpnServer Conn) (addr : SocketAddr) {gone : List Unacked}
    (h : s.server.Settled gone) (es : List (LinkEvent Conn)) :
    (run (linkStep S addr) s es).server.Settled (gone ++ givenUp S addr s es) := by
  induction es generalizing s gone with
  | nil =>
    show s.server.Settled (gone ++ [])
    rwa [List.append_nil]
  | cons e es ih =>
    rw [run_cons, givenUp, trace_cons, List.flatMap_cons, ← List.append_assoc]
    cases e with
    | server e => exact ih (settled_step S addr h e)
    | deliver pkt =>
      refine ih ?_
      show s.server.Settled (gone ++ [])
      rwa [List.append_nil]

lemma Linked.find_sound (h : Linked s) (hlen : (built s.server.log).length < 2 ^ 32) {n : ℕ}
    (hn : n ≤ (built s.server.log).length) {pkt : ControlPacket}
    (hf : s.received.find? (fun p => p.packetId = some (UInt32.ofNat n)) = some pkt) :
    (built s.server.log)[n]? = some pkt := by
  have hid : pkt.packetId = some (UInt32.ofNat n) := by simpa using List.find?_some hf
  have hsent : Effect.sent pkt ∈ s.server.log := by
    obtain ⟨e, he, hpkt⟩ := List.mem_filterMap.mp (h.delivered pkt (List.mem_of_find?_eq_some hf))
    cases e <;> cases hpkt
    exact he
  have hbuilt : pkt ∈ built s.server.log := by
    rcases h.numbered.sent pkt hsent with hnone | hbuilt
    · rw [hid] at hnone
      cases hnone
    · exact hbuilt
  obtain ⟨i, hi⟩ := List.mem_iff_getElem?.mp hbuilt
  have hlt := (List.getElem?_eq_some_iff.mp hi).1
  have hsame := (h.numbered.pid i pkt hi).symm.trans hid
  rw [Option.some_inj] at hsame
  -- fewer than 2 ^ 32 packets: equal ids are equal numbers
  have hmod : i % 2 ^ 32 = n % 2 ^ 32 := by simpa using congrArg UInt32.toNat hsame
  rw [Nat.mod_eq_of_lt (by omega), Nat.mod_eq_of_lt (by omega)] at hmod
  rwa [← hmod]

lemma Numbered.nodup {a : Abs} (h : Numbered a) (hlen : (built a.log).length < 2 ^ 32) :
    (built a.log).Nodup := by
  rw [List.nodup_iff_getElem?_ne_getElem?]
  intro i j hij hj heq
  obtain ⟨pkt, hpkt⟩ : ∃ pkt, (built a.log)[j]? = some pkt := ⟨_, List.getElem?_eq_getElem hj⟩
  have hsame := (h.pid i pkt (heq.trans hpkt)).symm.trans (h.pid j pkt hpkt)
  rw [Option.some_inj] at hsame
  have hmod : i % 2 ^ 32 = j % 2 ^ 32 := by simpa using congrArg UInt32.toNat hsame
  omega

lemma Linked.putInOrder_eq (h : Linked s) (hlen : (built s.server.log).length < 2 ^ 32)
    (hall : built s.server.log ⊆ s.received) : putInOrder s.received = built s.server.log := by
  refine inOrder_eq (fun n hn pkt hf => h.find_sound hlen hn hf) (fun n hn => ?_) ?_
  · obtain ⟨pkt, hpkt⟩ : ∃ pkt, (built s.server.log)[n]? = some pkt :=
      ⟨_, List.getElem?_eq_getElem hn⟩
    have hid := h.numbered.pid n pkt hpkt
    have hmem : pkt ∈ s.received := hall (List.mem_of_getElem? hpkt)
    rcases hf : s.received.find? (fun p => p.packetId = some (UInt32.ofNat n)) with _ | q
    · have hnot := List.find?_eq_none.mp hf pkt hmem
      simp [hid] at hnot
    · exact hf.trans (h.find_sound hlen (Nat.le_of_lt hn) hf).symm
  · exact (List.subperm_of_subset (h.numbered.nodup hlen) hall).length_le

end Link

/-- **The control channel delivers.** In every run of the two parties in which the client
acknowledges what it has received, and as long as the packet ids have not run out: what the client
can put in order is an initial part of what the session has built; each packet handed to the
transport has been received, is kept for another attempt, or has been given up after six, failed
ones included; and if every packet built was handed to the transport, then the packets carry
exactly what the TLS contexts have put out, and a client that has nothing left to acknowledge, with
none given up, has them all in order. -/
theorem control_delivered (S : VpnServer Conn) (addr : SocketAddr) (o : Opening Conn)
    (es : List (LinkEvent Conn))
    (hh : AllMeet (linkStep S addr) Honest ⟨started S o, []⟩ es)
    (hlen : (built (run (linkStep S addr) ⟨started S o, []⟩ es).server.log).length < 2 ^ 32) :
    let s := run (linkStep S addr) ⟨started S o, []⟩ es
    let gone := givenUp S addr ⟨started S o, []⟩ es
    putInOrder s.received <+: built s.server.log ∧
    (∀ pkt ∈ tracked s.server.log,
      pkt ∈ s.received ∨ pkt.WaitsIn s.server.sess.unacked ∨ pkt.WaitsIn gone) ∧
    (tracked s.server.log = built s.server.log →
      (∀ ctx, carriedFrom ctx s.server.log = drainedFrom ctx s.server.log) ∧
      (s.server.sess.unacked = [] → gone = [] →
        putInOrder s.received = built s.server.log)) := by
  intro s gone
  have hlinked : Linked s :=
    run_keeps (fun _ _ h he => h.step he) (linked_started S o) hh
  have hsettled : s.server.Settled ([] ++ gone) :=
    settled_run (s := ⟨started S o, []⟩) S addr (settled_started S o) es
  rw [List.nil_append] at hsettled
  obtain ⟨hsub, hcarried, hkept⟩ := hsettled
  simp only [World.mail, tracked_post, built_post, carriedFrom_post, drainedFrom_post,
    List.append_nil] at hsub hcarried hkept
  have hwhere : ∀ pkt ∈ tracked s.server.log,
      pkt ∈ s.received ∨ pkt.WaitsIn s.server.sess.unacked ∨ pkt.WaitsIn gone := by
    -- a packet that has been acknowledged has been received
    intro pkt hpkt
    refine (hkept pkt hpkt).imp_left ?_
    rintro ⟨pid, hpid, hid⟩
    rw [ackedIds_post] at hpid
    exact hlinked.received (Nat.le_of_lt hlen) (hsub.subset hpkt) hid hpid
  refine ⟨?_, hwhere, fun hall => ⟨hcarried hall, fun hqueue hgone => ?_⟩⟩
  · exact inOrder_initial (fun n hn pkt hf => hlinked.find_sound hlen hn hf) (Nat.zero_le _) _
  · refine hlinked.putInOrder_eq hlen fun pkt hpkt => ?_
    rcases hwhere pkt (hall ▸ hpkt) with hgot | ⟨u, hu, -⟩ | ⟨u, hu, -⟩
    · exact hgot
    · rw [hqueue] at hu
      cases hu
    · rw [hgone] at hu
      cases hu

lemma lateDelivery_facts :
    AllMeet (linkStep plainServer plainAddr) Honest ⟨started plainServer plainOpening, []⟩
        (lossyRekey ++ lateReply) ∧
      (built (run (linkStep plainServer plainAddr) ⟨started plainServer plainOpening, []⟩
        (lossyRekey ++ lateReply)).server.log).length = 4 ∧
      tracked (run (linkStep plainServer plainAddr) ⟨started plainServer plainOpening, []⟩
          (lossyRekey ++ lateReply)).server.log =
        built (run (linkStep plainServer plainAddr) ⟨started plainServer plainOpening, []⟩
          (lossyRekey ++ lateReply)).server.log ∧
      (run (linkStep plainServer plainAddr) ⟨started plainServer plainOpening, []⟩
        (lossyRekey ++ lateReply)).server.sess.unacked = [] ∧
      givenUp plainServer plainAddr ⟨started plainServer plainOpening, []⟩
        (lossyRekey ++ lateReply) = [] := by
  decide +kernel

/-- A rekey whose reply is lost at first: once all has arrived and is acknowledged, the client has
the four packets in order. -/
theorem control_delivered_late :
    let s := run (linkStep plainServer plainAddr) ⟨started plainServer plainOpening, []⟩
      (lossyRekey ++ lateReply)
    putInOrder s.received = built s.server.log ∧ (built s.server.log).length = 4 ∧
      ∀ ctx, carriedFrom ctx s.server.log = drainedFrom ctx s.server.log := by
  obtain ⟨hh, hfour, hall, hqueue, hgone⟩ := lateDelivery_facts
  obtain ⟨-, -, hrest⟩ := control_delivered plainServer plainAddr plainOpening _ hh
    (by rw [hfour]; decide)
  exact ⟨(hrest hall).2 hqueue hgone, hfour, (hrest hall).1⟩

end Javs
