import Javs.Acks
import Javs.Feeds

/-!
What a session holds for its client, and what the client has been told.

Behind the handshake the server tells its client three things over the main TLS connection: its
half of the key exchange, the configuration with the addresses it has been given, and a notice
when the server shuts down. The account of a session puts what was queued beside what the session
holds. Few handlers touch it, and every event changes it by a sequence of the postings below.
-/

namespace Javs

open Lib Lib.Proc Relation M Bytes

variable {Conn : Type} {α : Type}

structure Account where
  state : State
  ip : Option IpAddr
  ip6 : Option Ipv6Addr
  peerId : UInt32
  cn : Option Text
  serverRandom1 : Bytes
  serverRandom2 : Bytes
  clientSid : SessionId
  serverSid : SessionId
  /-- The slots installed so far. -/
  installs : List KeySlot
  /-- The plaintexts queued on the main connection so far. -/
  queued : List Bytes

def World.account (w : World (Conn × List Bytes)) : Account where
  state := w.sess.state
  ip := w.sess.assignedIp
  ip6 := w.sess.assignedIpV6
  peerId := w.sess.peerId
  cn := w.sess.clientCn
  serverRandom1 := w.sess.serverRandom1
  serverRandom2 := w.sess.serverRandom2
  clientSid := w.sess.clientSessionId
  serverSid := w.sess.serverSessionId
  installs := installs w.log
  queued := w.queued

namespace Account

variable (S : VpnServer Conn) (a : Account)

/-- The key material that a client message and the server's random values give. -/
def keyData (km : ClientKeyMethod2) (r1 r2 : Bytes) : Bytes :=
  deriveOpenvpnKeyData S.prims km.preMaster km.random1 r1 km.random2 r2 (putU64 a.clientSid)
    (putU64 a.serverSid)

def keyReply : Bytes := serverKeyMethod2 S a.serverRandom1 a.serverRandom2

def pushReply (ip : Ipv4Addr) (ip6 : Option Ipv6Addr) : Bytes :=
  buildPushReply S.cfg ip ip6 a.peerId
    (((S.cfg.clientConfig a.cn).map ClientConfig.pushRoutes).getD [])

end Account

def restartNotice : Bytes := ascii "RESTART,1" ++ [0]

/-- What is entered into an account at a time. -/
inductive Posting (S : VpnServer Conn) (a : Account) : Account → Prop
  | handshaken (cn) (hs : a.state = .handshaking) : Posting S a { a with state := .keyExchange, cn }
  | keyed (km : ClientKeyMethod2) (hkm : ∃ b n, ClientKeyMethod2.tryParse b = .ok (.ready km n))
      (hs : a.state = .keyExchange) :
      Posting S a { a with
        state := .pushPending
        installs := a.installs ++ [.fresh 0 (a.keyData S km a.serverRandom1 a.serverRandom2)]
        queued := a.queued ++ [a.keyReply S] }
  /-- A `PUSH_REQUEST` that got no further than its IPv4 address. -/
  | assigned (ip) (hs : a.state = .pushPending) : Posting S a { a with ip := some (.v4 ip) }
  | pushed (ip ip6) (hs : a.state = .pushPending) :
      Posting S a { a with
        state := .established
        ip := some (.v4 ip)
        ip6 := ip6 <|> a.ip6
        queued := a.queued ++ [a.pushReply S ip ip6] }
  | rekeyed (km : ClientKeyMethod2) (hkm : ∃ b n, ClientKeyMethod2.tryParse b = .ok (.ready km n))
      (keyId r1 r2) (hs : a.state.early = false) :
      Posting S a { a with installs := a.installs ++ [.fresh keyId (a.keyData S km r1 r2)] }
  | closed (hs : a.state = .established) : Posting S a { a with state := .closed }
  | restarting (hs : a.state = .established) :
      Posting S a { a with queued := a.queued ++ [restartNotice] }

abbrev Postings (S : VpnServer Conn) : Account → Account → Prop := ReflTransGen (Posting S)

/-! ### Handlers that leave the account alone -/

/-- The account, and the plaintext the client has sent that is not taken yet. -/
def World.ledger (w : World (Conn × List Bytes)) : Account × Bytes :=
  (w.account, w.sess.tls.plaintextIn)

/-- Of a rekey in progress, the server's random values and what is queued on its connection. -/
def World.papers (w : World (Conn × List Bytes)) : Option (Bytes × Bytes × List Bytes) :=
  w.sess.rekey.map fun rk => (rk.serverRandom1, rk.serverRandom2, rk.tls.conn.2)

def World.holdings (w : World (Conn × List Bytes)) :
    (Account × Bytes) × Option (Bytes × Bytes × List Bytes) :=
  (w.ledger, w.papers)

section Handlers

variable {S : VpnServer Conn} {w w' : World (Conn × List Bytes)}

lemma account_tell {e : Effect} (he : installs [e] = [])
    (hw : World.account { w' with log := w.log } = w.account) (hl : w'.log = w.log ++ [e]) :
    w'.account = w.account := by
  have hlog : installs w'.log = installs w.log := by
    rw [hl, installs, List.filterMap_append]
    exact (congrArg _ he).trans (List.append_nil _)
  rw [← hw]
  unfold World.account
  rw [hlog]
  rfl

lemma ledger_tell {e : Effect} (he : installs [e] = [])
    (hw : World.ledger { w' with log := w.log } = w.ledger) (hl : w'.log = w.log ++ [e]) :
    w'.ledger = w.ledger := by
  obtain ⟨haccount, hplain⟩ := Prod.mk.inj hw
  exact Prod.ext (account_tell he haccount hl) hplain

lemma holdings_tell {e : Effect} (he : installs [e] = [])
    (hw : World.holdings { w' with log := w.log } = w.holdings) (hl : w'.log = w.log ++ [e]) :
    w'.holdings = w.holdings := by
  obtain ⟨hledger, hpapers⟩ := Prod.mk.inj hw
  exact Prod.ext (ledger_tell he hledger hl) hpapers

lemma ledger_of_holdings {m : M (Conn × List Bytes) α} (h : Keeps World.holdings m) :
    Keeps World.ledger m := fun w => congrArg Prod.fst (h w)

lemma holdings_emit {e : Effect} (he : installs [e] = []) :
    Keeps World.holdings (emit e : M (Conn × List Bytes) Unit) :=
  keeps_modify fun _ => holdings_tell he rfl rfl

lemma holdings_context (msg : String) (x : Res α) :
    Keeps World.holdings (context msg x : M (Conn × List Bytes) α) := by
  rcases x with (_ | _) | a <;> exact keeps_ofExcept _

lemma holdings_recover {m : M (Conn × List Bytes) α} (h : Keeps World.holdings m) (a : α) :
    Keeps World.holdings (recover m a) := by
  refine keeps_tryCatch h fun e => ?_
  rcases e with msg | msg
  · exact keeps_pure a
  · exact keeps_throw _

lemma holdings_transportSend (bytes : Bytes) :
    Keeps World.holdings (transportSend bytes : M (Conn × List Bytes) Unit) := by
  refine keeps_get_bind fun w => ?_
  split
  · refine keepsAt_bind (keepsAt_set rfl) fun _ => ?_
    split <;> exact keeps_throw _
  · exact keepsAt_set (holdings_tell rfl rfl rfl)

variable (S)

lemma holdings_wrapForWire (inner : Bytes) :
    Keeps World.holdings (wrapForWire S.recording inner) := by
  refine keeps_get_bind fun w => ?_
  split
  · exact keepsAt_bind (keepsAt_set rfl) fun _ => keeps_ofExcept _
  · exact keepsAt_bind (keepsAt_set rfl) fun _ => keeps_ofExcept _
  · exact keeps_pure _ w

lemma holdings_sendAndTrack (pkt : ControlPacket) :
    Keeps World.holdings (sendAndTrack S.recording pkt) := by
  refine keeps_bind (holdings_wrapForWire S _) fun wire => ?_
  refine keeps_bind (holdings_transportSend wire) fun _ =>
    keeps_bind (holdings_emit rfl) fun _ => ?_
  split
  · exact keeps_modify fun _ => rfl
  · exact keeps_pure _

lemma holdings_sendChunk (ctx : Ctx) (keyId : UInt8) (chunk : Bytes) :
    Keeps World.holdings (sendChunk S.recording ctx keyId chunk) :=
  keeps_get_bind fun _ => keepsAt_bind (keepsAt_set (holdings_tell rfl rfl rfl)) fun _ =>
    holdings_sendAndTrack S _

lemma holdings_flushOutgoing : Keeps World.holdings (flushOutgoing S.recording) := by
  refine keeps_get_bind fun w => ?_
  refine keepsAt_bind (keepsAt_set (holdings_tell rfl rfl rfl)) fun _ => ?_
  split
  · exact keeps_forM fun chunk _ => holdings_sendChunk S _ _ chunk
  · split
    · refine keeps_bind (keeps_modify fun _ => holdings_tell rfl rfl rfl) fun _ => ?_
      refine keeps_bind (holdings_wrapForWire S _) fun wire => ?_
      exact keeps_bind (holdings_transportSend wire) fun _ => holdings_emit rfl
    · exact keeps_pure _

lemma holdings_flushRekeyOutgoing : Keeps World.holdings (flushRekeyOutgoing S.recording) := by
  rw [flushRekeyOutgoing_eq]
  refine keeps_get_bind fun w => ?_
  rcases hrk : w.sess.rekey with _ | rk
  · exact keeps_pure _ w
  · -- taking what is to be sent leaves what has been queued
    have hpapers : w.papers = some (rk.serverRandom1, rk.serverRandom2, rk.tls.conn.2) := by
      rw [World.papers, hrk, Option.map_some]
    refine keepsAt_bind (keepsAt_set (holdings_tell rfl ?_ rfl)) fun _ => ?_
    · exact Prod.ext rfl hpapers.symm
    · split
      · exact keeps_pure _
      · exact keeps_forM fun chunk _ => holdings_sendChunk S _ _ chunk

lemma ledger_finishRekey : Keeps World.ledger (finishRekey : M (Conn × List Bytes) Unit) := by
  rw [finishRekey_eq]
  refine keeps_get_bind fun w => ?_
  split
  · exact keeps_pure _ w
  · split
    · exact keepsAt_set (ledger_tell rfl rfl rfl)
    · exact keeps_pure _ w

lemma holdings_acceptControl (ctrl : ControlPacket) (replayPid : Option UInt32) :
    Keeps World.holdings (acceptControl ctrl replayPid : M (Conn × List Bytes) Unit) := by
  refine keeps_bind (keeps_modify fun _ => rfl) fun _ => keeps_bind ?_ fun _ => keeps_bind ?_
    fun _ => ?_
  · rcases replayPid with _ | pid
    · exact keeps_pure _
    · intro w
      rw [KeepsAt, checkReplay_some]
      rfl
  · unfold processAcks
    split
    · exact keeps_pure _
    · refine keeps_modify fun w => holdings_tell (e := .acked ctrl.acks) rfl ?_ rfl
      simp only [Session.processAcks]
      split <;> rfl
  · rcases ctrl.packetId with _ | pid
    · exact keeps_pure _
    · refine keeps_modify fun w => ?_
      simp only [Session.noteReceived]
      split <;> rfl

lemma ledger_handleSoftReset (ctrl : ControlPacket) :
    Keeps World.ledger (handleSoftReset S.recording ctrl) := by
  refine keeps_get_bind fun w => ?_
  split
  · exact keeps_pure _ w
  · split
    · exact keeps_pure _ w
    · split
      · exact keeps_throw _ w
      · exact keepsAt_bind (keepsAt_set (ledger_tell rfl rfl rfl)) fun _ =>
          ledger_of_holdings (holdings_sendAndTrack S _)

lemma holdings_decryptAndForward (pkt : Bytes) :
    Keeps World.holdings (decryptAndForward S.recording pkt) := by
  intro w
  rcases decryptAndForward_cases (S := S.recording) w pkt with
    ⟨e, he⟩ | ⟨dp, i, slot, plaintext, -, h | h⟩
  · rw [KeepsAt, he]
  · rw [KeepsAt, h]
    exact holdings_tell rfl rfl rfl
  · rw [KeepsAt, h]
    have hopened : (w.opened pkt dp i slot).holdings = w.holdings := holdings_tell rfl rfl rfl
    exact Eq.trans (holdings_tell (w := w.opened pkt dp i slot) rfl rfl rfl) hopened

lemma holdings_sendData (plaintext : Bytes) : Keeps World.holdings (do
    transportSend (← buildDataPacket S.recording plaintext)) := by
  refine keeps_bind (keeps_get_bind fun w => ?_) fun _ => holdings_transportSend _
  split
  · exact keeps_throw _ w
  · refine keepsAt_bind (keepsAt_set (holdings_tell rfl rfl rfl)) fun _ => ?_
    exact keeps_bind (keeps_ofExcept _) fun _ => keeps_pure _

lemma holdings_forwardLocked (ipPkt : Bytes) :
    Keeps World.holdings (forwardLocked S.recording ipPkt) := by
  refine keeps_get_bind fun w => ?_
  split
  · exact keeps_pure _ w
  · exact holdings_sendData S ipPkt w

lemma holdings_pingTick : Keeps World.holdings (pingTick S.recording) := by
  refine keeps_get_bind fun w => ?_
  split
  · exact keeps_pure _ w
  · exact holdings_sendData S pingPayload w

lemma ledger_rekeyTick : Keeps World.ledger (rekeyTick S.recording) := by
  refine keeps_get_bind fun w => ?_
  split
  · exact keeps_pure _ w
  · split
    · exact keeps_pure _ w
    · split
      · exact keeps_pure _ w
      · exact keepsAt_bind (keepsAt_set (ledger_tell rfl rfl rfl)) fun _ =>
          ledger_of_holdings (holdings_sendAndTrack S _)

lemma holdings_retransmitTick : Keeps World.holdings (retransmitTick S.recording) := by
  have hrewrap (stale : List Bytes) : Keeps World.holdings (rewrap S.recording stale) := by
    induction stale with
    | nil => exact keeps_pure _
    | cons inner rest ih =>
      refine keeps_bind (holdings_recover (keeps_bind (holdings_wrapForWire S inner)
        fun _ => keeps_pure _) _) fun _ => keeps_bind ih fun _ => keeps_pure _
  refine keeps_get_bind fun w => keepsAt_bind (keepsAt_set rfl) fun _ => ?_
  exact keeps_bind (hrewrap _) fun _ => keeps_forM fun bytes _ =>
    holdings_recover (holdings_transportSend bytes) ()

end Handlers

/-! ### Postings -/

section Postings

variable {S : VpnServer Conn} {w : World (Conn × List Bytes)}

lemma postings_of_eq {a b : Account} (h : b = a) : Postings S a b := h ▸ .refl

lemma postings_of_ledger {u : World (Conn × List Bytes)} (h : u.ledger = w.ledger) :
    Postings S w.account u.account :=
  postings_of_eq (congrArg Prod.fst h)

lemma postings_of_holdings {u : World (Conn × List Bytes)} (h : u.holdings = w.holdings) :
    Postings S w.account u.account :=
  postings_of_ledger (congrArg Prod.fst h)

lemma postings_bind {β : Type} {m : M (Conn × List Bytes) α} {k : α → M (Conn × List Bytes) β}
    (hm : Postings S w.account (m w).2.account)
    (hk : ∀ a t, m w = (.ok a, t) → Postings S t.account (k a t).2.account) :
    Postings S w.account ((m >>= k) w).2.account := by
  rcases hmw : m w with ⟨e | a, t⟩ <;> rw [hmw] at hm
  · rw [bind_error hmw]
    exact hm
  · rw [bind_ok hmw]
    exact hm.trans (hk a t hmw)

/-- The session after the client's key-method-2 message. -/
def World.exchanged (S : VpnServer Conn) (km : ClientKeyMethod2) (w : World (Conn × List Bytes)) :
    World (Conn × List Bytes) :=
  let slot := KeySlot.fresh 0
    (w.account.keyData S km w.account.serverRandom1 w.account.serverRandom2)
  { w with
    sess := { w.sess with
      toSlotTable := w.sess.place slot
      clientPreMaster := some km.preMaster
      clientRandom1 := some km.random1
      clientRandom2 := some km.random2
      clientOptions := some km.options
      clientPeerInfo := some km.peerInfo
      tls := ⟨((S.rustls.writePlaintext w.sess.tls.conn.1 (w.account.keyReply S)).1,
        w.queued ++ [w.account.keyReply S]), w.sess.tls.plaintextIn⟩
      state := .pushPending }
    log := w.log ++ [.installed slot] }

lemma handleKeyMethod2_recording (hS : S.Queues) (km : ClientKeyMethod2)
    (w : World (Conn × List Bytes)) :
    handleKeyMethod2 S.recording km w = (.ok (), w.exchanged S km) := by
  unfold handleKeyMethod2 modifySess
  rw [modify_bind]
  have hinstall (w : World (Conn × List Bytes)) {pm r1 r2 : Bytes}
      (hpm : w.sess.clientPreMaster = some pm) (hr1 : w.sess.clientRandom1 = some r1)
      (hr2 : w.sess.clientRandom2 = some r2) :
      installPrfSlot S.recording 0 w = (.ok (), { w with
        sess := { w.sess with toSlotTable := w.sess.place (.fresh 0 (deriveOpenvpnKeyData S.prims
          pm r1 w.sess.serverRandom1 r2 w.sess.serverRandom2 (putU64 w.sess.clientSessionId)
          (putU64 w.sess.serverSessionId))) },
        log := w.log ++ [.installed (.fresh 0 (deriveOpenvpnKeyData S.prims
          pm r1 w.sess.serverRandom1 r2 w.sess.serverRandom2 (putU64 w.sess.clientSessionId)
          (putU64 w.sess.serverSessionId)))] }) := by
    unfold installPrfSlot
    rw [get_bind, Session.prfSlot, hpm, hr1, hr2]
    rfl
  rw [bind_ok (hinstall _ rfl rfl rfl), get_bind, bind_ok (sendPlaintext_recording hS _ _)]
  rfl

lemma account_exchanged (km : ClientKeyMethod2) (w : World (Conn × List Bytes)) :
    (w.exchanged S km).account = { w.account with
      state := .pushPending
      installs := w.account.installs ++
        [.fresh 0 (w.account.keyData S km w.account.serverRandom1 w.account.serverRandom2)]
      queued := w.account.queued ++ [w.account.keyReply S] } := by
  simp [World.account, World.exchanged, installs, World.queued]

lemma account_chooseIp (cc : Option ClientConfig) :
    Keeps World.account (chooseIp S.recording cc) := by
  refine keeps_get_bind fun w => ?_
  split
  · split
    · exact keeps_throw _ w
    · exact keeps_pure _ w
  · exact keeps_throw _ w
  · refine keeps_get_bind (fun w => ?_) w
    dsimp only
    split
    · exact keeps_throw _ w
    · exact keepsAt_bind (keepsAt_set rfl) fun _ => keeps_pure _

lemma account_allocateIpV6 : Keeps World.account (allocateIpV6 S.recording) := by
  refine keeps_get_bind fun w => ?_
  split
  · exact keeps_pure _ w
  · exact keeps_throw _ w
  · split
    · exact keeps_throw _ w
    · exact keepsAt_bind (keepsAt_set rfl) fun _ => keeps_pure _

lemma assignIp_account (addr : SocketAddr) (cc : Option ClientConfig)
    (w : World (Conn × List Bytes)) :
    match assignIp S.recording addr cc w with
    | (.error _, w') => w'.account = w.account
    | (.ok ip, w') => w'.account = { w.account with ip := some (.v4 ip) } := by
  have hchoose := account_chooseIp (S := S) cc w
  unfold KeepsAt at hchoose
  unfold assignIp
  rcases hip : chooseIp S.recording cc w with ⟨e | ip, w'⟩ <;> rw [hip] at hchoose
  · rw [bind_error hip]
    exact hchoose
  · rw [bind_ok hip, modify_bind, pure_apply]
    show World.account _ = _
    rw [← hchoose]
    simp [World.account, installs, World.queued]

lemma assignIpV6_account (addr : SocketAddr) (w : World (Conn × List Bytes)) :
    match assignIpV6 S.recording addr w with
    | (.error _, w') => w'.account = w.account
    | (.ok ip6, w') => w'.account = { w.account with ip6 := ip6 <|> w.account.ip6 } := by
  have hallocate := account_allocateIpV6 (S := S) w
  unfold KeepsAt at hallocate
  unfold assignIpV6
  rcases hip : allocateIpV6 S.recording w with ⟨e | _ | ip6, w'⟩ <;> rw [hip] at hallocate
  · rw [bind_error hip]
    exact hallocate
  · rw [bind_ok hip]
    exact hallocate
  · rw [bind_ok hip]
    dsimp only
    rw [modify_bind, pure_apply]
    show World.account _ = _
    rw [← hallocate]
    simp [World.account, installs, World.queued]

lemma handlePushRequest_account (hS : S.Queues) (addr : SocketAddr)
    (w : World (Conn × List Bytes)) :
    let a := w.account
    let b := (handlePushRequest S.recording addr w).2.account
    b = a ∨ (∃ ip, b = { a with ip := some (.v4 ip) }) ∨
      ∃ ip ip6, b = { a with
        state := .established
        ip := some (.v4 ip)
        ip6 := ip6 <|> a.ip6
        queued := a.queued ++ [a.pushReply S ip ip6] } := by
  intro a b
  have hv4 := assignIp_account (S := S) addr (S.recording.cfg.clientConfig w.sess.clientCn) w
  have hb : b = (handlePushRequest S.recording addr w).2.account := rfl
  unfold handlePushRequest at hb
  rw [get_bind] at hb
  dsimp only at hb
  rcases hip : assignIp S.recording addr (S.recording.cfg.clientConfig w.sess.clientCn) w with
    ⟨e | ip, w₁⟩ <;> rw [hip] at hv4
  -- no IPv4 address: nothing is done. No IPv6 address: what was done for IPv4 stays
  · rw [bind_error hip] at hb
    exact .inl (hb.trans hv4)
  rw [bind_ok hip] at hb
  have hv6 := assignIpV6_account (S := S) addr w₁
  rcases hip6 : assignIpV6 S.recording addr w₁ with ⟨e | ip6, w₂⟩ <;> rw [hip6] at hv6
  · rw [bind_error hip6] at hb
    exact .inr (.inl ⟨ip, hb.trans (hv6.trans hv4)⟩)
  · rw [bind_ok hip6, bind_ok (sendPlaintext_recording hS _ _)] at hb
    refine .inr (.inr ⟨ip, ip6, ?_⟩)
    have hboth : w₂.account = { a with ip := some (.v4 ip), ip6 := ip6 <|> a.ip6 } := by
      rw [hv6, hv4]
    have hdone : b = { w₂.account with
        state := .established
        queued := w₂.account.queued ++ [a.pushReply S ip ip6] } := hb
    rw [hdone, hboth]

lemma account_takeKeys (hS : S.Queues) (km : ClientKeyMethod2) (n : ℕ)
    (w : World (Conn × List Bytes)) :
    (takeKeys S.recording km n w).2.account = { w.account with
      state := .pushPending
      installs := w.account.installs ++
        [.fresh 0 (w.account.keyData S km w.account.serverRandom1 w.account.serverRandom2)]
      queued := w.account.queued ++ [w.account.keyReply S] } := by
  unfold takeKeys modifySess
  rw [modify_bind, bind_ok (handleKeyMethod2_recording hS km _)]
  exact account_exchanged km { w with sess := { w.sess with tls := w.sess.tls.drain n } }

lemma TakingRound.postings (hS : S.Queues) {addr : SocketAddr} {b : Bytes}
    {act : M (Conn × List Bytes) Bool} {n : ℕ}
    (h : TakingRound S.recording addr b w.sess.state act n) :
    Postings S w.account (act w).2.account := by
  generalize hst : w.sess.state = st at h
  have hstate : w.account.state = st := hst
  cases h with
  | keys km n hkm =>
    rw [account_takeKeys hS]
    exact .single (.keyed km ⟨_, n, hkm⟩ hstate)
  | request msg n hmsg =>
    unfold takeRequest modifySess
    rw [modify_bind]
    dsimp only
    split
    · have hsame : World.account { w with sess := { w.sess with tls := w.sess.tls.drain n } } =
        w.account := rfl
      have hpush := handlePushRequest_account hS addr
        { w with sess := { w.sess with tls := w.sess.tls.drain n } }
      rw [hsame] at hpush
      refine hsame ▸ postings_bind ?_ fun _ t _ => .refl
      rw [hsame]
      -- the outcomes of a `PUSH_REQUEST`; the message itself is consumed in any case
      rcases hpush with h | ⟨ip, h⟩ | ⟨ip, ip6, h⟩
      · exact postings_of_eq h
      · rw [h]
        exact .single (.assigned ip hstate)
      · rw [h]
        exact .single (.pushed ip ip6 hstate)
    · exact .refl
  | message msg n hmsg =>
    unfold takeMessage modifySess
    rw [modify_bind]
    split
    · exact .single (.closed hstate)
    · exact .refl

lemma driveRound_postings (hS : S.Queues) (addr : SocketAddr) (w : World (Conn × List Bytes)) :
    Postings S w.account (driveRound S.recording addr w).2.account := by
  rcases hact : roundAct S.recording addr w.sess.state w.sess.tls.plaintextIn with _ | ⟨act, n⟩
  · rw [(driveRound_of_none hact).1]
  · rw [driveRound_of_some hact]
    exact (roundAct_eq_some.mp hact).postings hS

lemma driveLoop_postings (hS : S.Queues) (addr : SocketAddr) (fuel : ℕ)
    (w : World (Conn × List Bytes)) :
    Postings S w.account (driveLoop S.recording addr fuel w).2.account := by
  induction fuel generalizing w with
  | zero => exact .refl
  | succ fuel ih =>
    refine postings_bind (driveRound_postings hS addr w) fun more t _ => ?_
    split
    · exact ih t
    · exact .refl

lemma feed_queued (T : Rustls Conn) (t : TlsSession (Conn × List Bytes)) (data : Bytes) :
    (t.feed T.recording data).1.conn.2 = t.conn.2 := by
  have hloop := feedLoop_recording T data.length t.conn data
  unfold TlsSession.feed
  rcases hfed : TlsSession.feedLoop T.recording data.length t.conn data with ⟨c, e | ⟨⟩⟩ <;>
    rw [hfed] at hloop <;> exact hloop

/-- The session as `handle_control_packet` has it before `drive_control_plane`: the connection is
fed, and the handshake may be over. -/
def World.fed (S : VpnServer Conn) (ctrl : ControlPacket) (w : World Conn) : World Conn :=
  let tls := (w.sess.tls.feed S.rustls ctrl.payload).1
  let w' := { w with sess := { w.sess with tls }, log := w.log ++ [.feed .main ctrl] }
  if w.sess.state = .handshaking ∧ !tls.isHandshaking S.rustls then
    { w' with sess := w'.sess.finalizeKeys S.rustls, log := w'.log ++ [.handshaken .main] }
  else w'

lemma handleMainControl_of_ok {S : VpnServer Conn} {w : World Conn} {ctrl : ControlPacket}
    (addr : SocketAddr) (h : (w.sess.tls.feed S.rustls ctrl.payload).2 = .ok ()) :
    handleMainControl S addr ctrl w =
      (driveControlPlane S addr >>= fun _ => flushOutgoing S) (w.fed S ctrl) := by
  unfold handleMainControl World.fed
  rw [get_bind]
  dsimp only
  rw [put_bind, h]
  split <;> rfl

lemma handleMainControl_of_error {S : VpnServer Conn} {w : World Conn} {ctrl : ControlPacket}
    {e : Err} (addr : SocketAddr) (h : (w.sess.tls.feed S.rustls ctrl.payload).2 = .error e) :
    (handleMainControl S addr ctrl w).2 = { w with
      sess := { w.sess with tls := (w.sess.tls.feed S.rustls ctrl.payload).1 }
      log := w.log ++ [.feed .main ctrl] } := by
  unfold handleMainControl
  rw [get_bind]
  dsimp only
  rw [put_bind, h]
  cases e <;> rfl

lemma account_feed (ctrl : ControlPacket) (w : World (Conn × List Bytes)) :
    World.account { w with
      sess := { w.sess with tls := (w.sess.tls.feed S.recording.rustls ctrl.payload).1 }
      log := w.log ++ [.feed .main ctrl] } = w.account := by
  have hfeed : (w.sess.tls.feed S.recording.rustls ctrl.payload).1.conn.2 = w.queued :=
    feed_queued S.rustls w.sess.tls ctrl.payload
  refine account_tell rfl ?_ rfl
  exact congrArg (fun q => ({ w.account with queued := q } : Account)) hfeed

lemma account_finalizeKeys (T : Rustls (Conn × List Bytes)) (w : World (Conn × List Bytes)) :
    ∃ cn, World.account { w with
      sess := w.sess.finalizeKeys T
      log := w.log ++ [.handshaken .main] } = { w.account with state := .keyExchange, cn } := by
  unfold Session.finalizeKeys
  split
  · rename_i cn _
    exact ⟨cn, by simp [World.account, installs, World.queued]⟩
  · exact ⟨w.sess.clientCn, by simp [World.account, installs, World.queued]⟩

lemma account_fed (S : VpnServer Conn) (ctrl : ControlPacket) (w : World (Conn × List Bytes)) :
    (w.fed S.recording ctrl).account = w.account ∨
      w.sess.state = .handshaking ∧
        ∃ cn, (w.fed S.recording ctrl).account = { w.account with state := .keyExchange, cn } := by
  unfold World.fed
  dsimp only
  split
  · rename_i hhand
    refine .inr ⟨hhand.1, ?_⟩
    obtain ⟨cn, h⟩ := account_finalizeKeys S.recording.rustls { w with
      sess := { w.sess with tls := (w.sess.tls.feed S.recording.rustls ctrl.payload).1 }
      log := w.log ++ [.feed .main ctrl] }
    exact ⟨cn, by rw [account_feed] at h; exact h⟩
  · exact .inl (account_feed ctrl w)

lemma handleMainControl_postings (hS : S.Queues) (addr : SocketAddr) (ctrl : ControlPacket)
    (w : World (Conn × List Bytes)) :
    Postings S w.account (handleMainControl S.recording addr ctrl w).2.account := by
  rcases hfeed : (w.sess.tls.feed S.recording.rustls ctrl.payload).2 with e | ⟨⟩
  · rw [handleMainControl_of_error addr hfeed, account_feed]
  · rw [handleMainControl_of_ok addr hfeed]
    have hrest (u : World (Conn × List Bytes)) : Postings S u.account
        ((driveControlPlane S.recording addr >>= fun _ => flushOutgoing S.recording) u).2.account :=
      postings_bind (driveLoop_postings hS addr _ u) fun _ t _ =>
        postings_of_holdings (holdings_flushOutgoing S t)
    rcases account_fed S ctrl w with h | ⟨hst, cn, h⟩
    · exact h ▸ hrest _
    · have hshake : Posting S w.account (w.fed S.recording ctrl).account :=
        h ▸ .handshaken cn hst
      exact .trans (.single hshake) (hrest _)

def Session.Later (sess : Session Conn) : Prop := sess.rekey.isSome → sess.state.early = false

lemma driveRekeyControlPlane_postings (hw : w.sess.Later) :
    Postings S w.account (driveRekeyControlPlane S.recording w).2.account := by
  rw [driveRekeyControlPlane_eq]
  rw [get_bind]
  rcases hrk : w.sess.rekey with _ | rk
  · exact .refl
  have hearly : w.account.state.early = false := hw (by rw [hrk]; rfl)
  dsimp only
  split
  · exact .refl
  rcases hkm : ClientKeyMethod2.tryParse rk.tls.plaintextIn with e | ⟨km, n⟩ | _
  · exact .refl
  · rw [bind_ok (ofExcept_apply _ _)]
    dsimp only
    unfold installSlot modifySess
    rw [modify_bind, modify_bind]
    have hinstalled : Posting S w.account { w.account with
        installs := w.account.installs ++
          [.fresh rk.keyId (w.account.keyData S km rk.serverRandom1 rk.serverRandom2)] } :=
      .rekeyed km ⟨_, n, hkm⟩ rk.keyId rk.serverRandom1 rk.serverRandom2 hearly
    -- the slot is installed before the reply is queued, whether or not queuing succeeds
    split
    · refine .trans (.single hinstalled) (postings_of_eq ?_)
      rw [modify_apply]
      simp [World.account, installs, World.queued]
      rfl
    · refine .trans (.single hinstalled) (postings_of_eq ?_)
      rw [throw_apply]
      simp [World.account, installs, World.queued]
      rfl
  · exact .refl

/-- The session as `handle_rekey_control` has it before `drive_rekey_control_plane`. -/
def World.rekeyFed (S : VpnServer Conn) (rk : RekeyTrack Conn) (ctrl : ControlPacket)
    (w : World Conn) : World Conn :=
  { w with
    sess := { w.sess with rekey := some (rk.fed S ctrl.payload) }
    log := w.log ++ [.feed (.rekey rk.keyId) ctrl] ++
      if rk.state = .handshaking ∧
          !(rk.tls.feed S.rustls ctrl.payload).1.isHandshaking S.rustls then
        [.handshaken (.rekey rk.keyId)]
      else [] }

lemma handleRekeyControl_of_ok {S : VpnServer Conn} {w : World Conn} {rk : RekeyTrack Conn}
    {ctrl : ControlPacket} (hrk : w.sess.rekey = some rk)
    (h : (rk.tls.feed S.rustls ctrl.payload).2 = .ok ()) :
    handleRekeyControl S ctrl w = (do
      driveRekeyControlPlane S
      flushRekeyOutgoing S
      finishRekey : M Conn Unit) (w.rekeyFed S rk ctrl) := by
  unfold handleRekeyControl World.rekeyFed RekeyTrack.fed
  rw [get_bind, hrk]
  dsimp only
  rw [put_bind, h]
  split
  · rfl
  · rw [List.append_nil]
    rfl

lemma handleRekeyControl_of_error {S : VpnServer Conn} {w : World Conn} {rk : RekeyTrack Conn}
    {ctrl : ControlPacket} {e : Err} (hrk : w.sess.rekey = some rk)
    (h : (rk.tls.feed S.rustls ctrl.payload).2 = .error e) :
    (handleRekeyControl S ctrl w).2 = { w with
      sess := { w.sess with
        rekey := some { rk with tls := (rk.tls.feed S.rustls ctrl.payload).1 } }
      log := w.log ++ [.feed (.rekey rk.keyId) ctrl] } := by
  unfold handleRekeyControl
  rw [get_bind, hrk]
  dsimp only
  rw [put_bind, h]
  cases e <;> rfl

lemma account_rekeyFed (S : VpnServer Conn) (rk : RekeyTrack (Conn × List Bytes))
    (ctrl : ControlPacket) (w : World (Conn × List Bytes)) :
    (w.rekeyFed S.recording rk ctrl).account = w.account := by
  have hinst : installs (w.rekeyFed S.recording rk ctrl).log = installs w.log := by
    rw [World.rekeyFed, List.append_assoc, installs_append]
    split <;> exact List.append_nil _
  rw [World.account, hinst]
  rfl

lemma handleRekeyControl_postings (ctrl : ControlPacket) (hw : w.sess.Later) :
    Postings S w.account (handleRekeyControl S.recording ctrl w).2.account := by
  rcases hrk : w.sess.rekey with _ | rk
  · unfold handleRekeyControl
    rw [get_bind, hrk]
    exact .refl
  rcases hfeed : (rk.tls.feed S.recording.rustls ctrl.payload).2 with e | ⟨⟩
  · rw [handleRekeyControl_of_error hrk hfeed]
    exact postings_of_eq (account_tell rfl rfl rfl)
  · rw [handleRekeyControl_of_ok hrk hfeed, ← account_rekeyFed S rk ctrl w]
    have hlater : (w.rekeyFed S.recording rk ctrl).sess.Later := fun _ => hw (by rw [hrk]; rfl)
    refine postings_bind (driveRekeyControlPlane_postings hlater) fun _ t _ => ?_
    refine postings_bind (postings_of_holdings (holdings_flushRekeyOutgoing S t)) fun _ v _ => ?_
    exact postings_of_ledger (ledger_finishRekey v)

lemma dispatch_cases (S : VpnServer Conn) (addr : SocketAddr) (ctrl : ControlPacket) :
    (ctrl.op = .controlV1 ∧ dispatch S addr ctrl = (do
      let w ← get
      if isRekey w.sess ctrl then handleRekeyControl S ctrl else handleMainControl S addr ctrl)) ∨
    dispatch S addr ctrl = handleSoftReset S ctrl ∨ dispatch S addr ctrl = pure () := by
  unfold dispatch
  split
  · exact .inl ⟨‹_›, rfl⟩
  · exact .inr (.inl rfl)
  · exact .inr (.inr rfl)

/-- **Every event makes such postings.** -/
theorem step_postings (hS : S.Queues) (addr : SocketAddr) (hw : w.sess.Later)
    (e : Event (Conn × List Bytes)) :
    Postings S w.account (step S.recording addr w e).account := by
  have henv (env : Env (Conn × List Bytes)) : World.account { w with env } = w.account := rfl
  cases e with
  | control env ctrl replayPid =>
    show Postings S (World.account { w with env }) _
    refine postings_bind (postings_of_holdings (holdings_acceptControl ctrl replayPid _))
      fun _ t ht => ?_
    have hlater : t.sess.Later := by
      rcases hacc : accepts { w with env } replayPid with _ | _
      · obtain ⟨e, w', h', -⟩ := acceptControl_rejected ctrl hacc
        rw [h'] at ht
        cases ht
      · obtain ⟨w', h', habs, -, hrekey, -⟩ := acceptControl_accepted ctrl hacc
        rw [h'] at ht
        obtain rfl : w' = t := (Prod.mk.inj ht).2
        have hstate : w'.sess.state = w.sess.state := by
          have hhear : w'.abs.state = _ := congrArg Abs.state habs
          exact hhear.trans (hear_state _ ctrl)
        unfold Session.Later
        rw [hrekey, hstate]
        exact hw
    rcases dispatch_cases S.recording addr ctrl with ⟨-, h⟩ | h | h <;> rw [h]
    · rw [get_bind]
      split
      · exact handleRekeyControl_postings ctrl hlater
      · exact handleMainControl_postings hS addr ctrl t
    · exact postings_of_ledger (ledger_handleSoftReset S ctrl t)
    · exact .refl
  | data env pkt => exact postings_of_holdings (holdings_decryptAndForward S pkt { w with env })
  | tun env ipPkt => exact postings_of_holdings (holdings_forwardLocked S ipPkt { w with env })
  | ping env => exact postings_of_holdings (holdings_pingTick S { w with env })
  | rekey env => exact postings_of_ledger (ledger_rekeyTick S { w with env })
  | retransmit env => exact postings_of_holdings (holdings_retransmitTick S { w with env })
  | shutdown env =>
    show Postings S (World.account { w with env })
      (shutdownClient S.recording { w with env }).2.account
    unfold shutdownClient
    rw [get_bind]
    split
    · exact .refl
    -- only an established client is told of the restart
    · rename_i hst
      rw [bind_ok (sendPlaintext_recording hS _ _)]
      have hflush := holdings_flushOutgoing S
        (World.setTls { w with env } ⟨((S.rustls.writePlaintext w.sess.tls.conn.1
          (ascii "RESTART,1" ++ [0])).1, w.queued ++ [ascii "RESTART,1" ++ [0]]),
          w.sess.tls.plaintextIn⟩)
      exact .trans (.single (.restarting (not_not.mp hst))) (postings_of_holdings hflush)
  | shared tab => exact .refl

end Postings

end Javs
