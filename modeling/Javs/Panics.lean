import Javs.Literal
import Javs.Pool
import Javs.DataRoundTrip

/-!
Packet processing does not panic.

The handlers read untrusted bytes only through readers that stay in bounds, and what they unwrap
is there. One panic is left that a handler could not rule out by itself: `allocate_ip_v6` expects
the end of the pool where there is a cursor. The server sets both or none, and no step of a run
changes that.
-/

namespace Javs

open Lib Proc Bytes

variable {Conn α : Type} {S : VpnServer Conn}

/-! ### Programs without panics -/

/-- Where there is a cursor for IPv6 addresses, the pool has an end. -/
def Paired (S : VpnServer Conn) (tab : Tables) : Prop :=
  tab.nextPoolIpV6.isSome → S.poolEndV6.isSome

def Err.IsPanic (e : Err) : Prop := ∃ msg, e = .panic msg

/-- The program keeps cursor and end together, and does not panic. -/
abbrev PanicFree (S : VpnServer Conn) (m : M Conn α) : Prop :=
  Safe (fun w => Paired S w.tab) Err.IsPanic m

section Rules

variable {w w' : World Conn}

lemma NoPanic.panicFree {x : Res α} (h : NoPanic x) : PanicFree S (Proc.ofExcept x : M Conn α) :=
  safe_ofExcept fun _ he ⟨msg, hmsg⟩ => h msg (he.trans (congrArg Except.error hmsg))

lemma panicFree_bail (msg : String) : PanicFree S (throw (.bail msg) : M Conn α) :=
  safe_throw fun ⟨_, h⟩ => by cases h

lemma panicFree_modify {f : World Conn → World Conn} (h : ∀ w, (f w).tab = w.tab) :
    PanicFree S (modify f : M Conn PUnit) :=
  safe_modify fun w hw => by rwa [h w]

lemma safeAt_put (hw : Paired S w.tab) (h : w'.tab = w.tab) :
    SafeAt (fun w => Paired S w.tab) Err.IsPanic (M.put w') w :=
  safeAt_set (by rwa [h])

lemma PanicFree.recover {m : M Conn α} (h : PanicFree S m) (a : α) :
    PanicFree S (M.recover m a) := by
  refine safe_tryCatch h fun e he => ?_
  rcases e with msg | msg
  · exact safe_pure a
  · exact absurd ⟨msg, rfl⟩ he

lemma panicFree_context (msg : String) {x : Res α} (h : NoPanic x) :
    PanicFree S (M.context msg x : M Conn α) := by
  rcases x with (_ | msg) | a
  · exact panicFree_bail _
  · exact absurd rfl (h msg)
  · exact safe_pure a

end Rules

/-! ### The control plane -/

section Control

variable (S)

lemma panicFree_wrapForWire (inner : Bytes) : PanicFree S (wrapForWire S inner) := by
  refine safe_get_bind fun w hw => ?_
  rcases S.tlsCrypt with _ | tc
  · rcases S.tlsAuth with _ | ta
    · exact safe_pure _ w hw
    · exact safeAt_bind (safeAt_put hw rfl) fun _ => (noPanic_tlsAuthWrap _ _ _ _ _).panicFree
  · exact safeAt_bind (safeAt_put hw rfl) fun _ => (noPanic_tlsCryptWrap _ _ _ _ _).panicFree

lemma panicFree_transportSend (bytes : Bytes) : PanicFree S (transportSend bytes) := by
  refine safe_get_bind fun w hw => ?_
  split
  · refine safeAt_bind (safeAt_put hw rfl) fun _ => ?_
    split <;> exact panicFree_bail _
  · exact safeAt_put hw rfl

lemma panicFree_emit (e : Effect) : PanicFree S (M.emit e : M Conn Unit) :=
  panicFree_modify fun _ => rfl

lemma panicFree_sendAndTrack (pkt : ControlPacket) : PanicFree S (sendAndTrack S pkt) := by
  refine safe_bind (panicFree_wrapForWire S _) fun wire => ?_
  refine safe_bind (panicFree_transportSend S wire) fun _ => ?_
  refine safe_bind (panicFree_emit S _) fun _ => ?_
  split
  · exact panicFree_modify fun _ => rfl
  · exact safe_pure _

lemma panicFree_sendChunk (ctx : Ctx) (keyId : UInt8) (chunk : Bytes) :
    PanicFree S (sendChunk S ctx keyId chunk) :=
  safe_get_bind fun _ hw =>
    safeAt_bind (safeAt_put hw rfl) fun _ => panicFree_sendAndTrack S _

lemma panicFree_flushOutgoing : PanicFree S (flushOutgoing S) := by
  refine safe_get_bind fun w hw => safeAt_bind (safeAt_put hw rfl) fun _ => ?_
  split
  · exact safe_forM fun _ _ => panicFree_sendChunk S _ _ _
  · split
    · refine safe_bind (panicFree_modify fun _ => rfl) fun _ => ?_
      refine safe_bind (panicFree_wrapForWire S _) fun wire => ?_
      exact safe_bind (panicFree_transportSend S wire) fun _ => panicFree_emit S _
    · exact safe_pure _

lemma panicFree_flushRekeyOutgoing : PanicFree S (flushRekeyOutgoing S) := by
  rw [flushRekeyOutgoing_eq]
  refine safe_get_bind fun w hw => ?_
  rcases w.sess.rekey with _ | rk
  · exact safe_pure _ w hw
  · refine safeAt_bind (safeAt_put hw rfl) fun _ => ?_
    split
    · exact safe_pure _
    · exact safe_forM fun _ _ => panicFree_sendChunk S _ _ _

lemma panicFree_sendPlaintext (data : Bytes) : PanicFree S (sendPlaintext S data) := by
  refine safe_get_bind fun w hw => safeAt_bind (safeAt_put hw rfl) fun _ => ?_
  split
  · exact safe_pure _
  · exact panicFree_bail _

lemma panicFree_driveRekeyControlPlane : PanicFree S (driveRekeyControlPlane S) := by
  rw [driveRekeyControlPlane_eq]
  refine safe_get_bind fun w hw => ?_
  rcases w.sess.rekey with _ | rk
  · exact safe_pure _ w hw
  dsimp only
  split
  · exact safe_pure _ w hw
  refine safeAt_bind ((noPanic_tryParse _).panicFree w hw) fun pop => ?_
  rcases pop with ⟨km, n⟩ | _
  · refine safe_bind (panicFree_modify fun _ => rfl) fun _ => ?_
    refine safe_bind (panicFree_modify fun _ => rfl) fun _ => ?_
    split
    · exact panicFree_modify fun _ => rfl
    · exact panicFree_bail _
  · exact safe_pure _

lemma panicFree_finishRekey : PanicFree S (finishRekey : M Conn Unit) := by
  rw [finishRekey_eq]
  refine safe_get_bind fun w hw => ?_
  rcases w.sess.rekey with _ | rk
  · exact safe_pure _ w hw
  dsimp only
  split
  · exact safeAt_put hw rfl
  · exact safe_pure _ w hw

lemma noPanic_feed (t : TlsSession Conn) (data : Bytes) : NoPanic (t.feed S.rustls data).2 := by
  have hloop (fuel : ℕ) (c : Conn) (data : Bytes) :
      NoPanic (TlsSession.feedLoop S.rustls fuel c data).2 := by
    induction fuel generalizing c data with
    | zero => exact noPanic_ok _
    | succ fuel ih =>
      rw [TlsSession.feedLoop]
      split
      · exact noPanic_ok _
      split
      · exact noPanic_bail _
      · exact noPanic_ok _
      split
      · exact noPanic_bail _
      · exact ih _ _
  have h := hloop data.length t.conn data
  rw [TlsSession.feed]
  split
  · rename_i c e hc
    rw [hc] at h
    exact h
  · exact noPanic_ok _

lemma panicFree_handleRekeyControl (ctrl : ControlPacket) :
    PanicFree S (handleRekeyControl S ctrl) := by
  rw [handleRekeyControl]
  refine safe_get_bind fun w hw => ?_
  rcases w.sess.rekey with _ | rk
  · exact safe_pure _ w hw
  dsimp only
  have hfed := noPanic_feed S rk.tls ctrl.payload
  rcases hfeed : rk.tls.feed S.rustls ctrl.payload with ⟨tls, fed⟩
  rw [hfeed] at hfed
  refine safeAt_bind (safeAt_put hw rfl) fun _ => ?_
  refine safe_bind (panicFree_context _ hfed) fun _ => ?_
  have hrest : PanicFree S (do driveRekeyControlPlane S; flushRekeyOutgoing S; finishRekey) :=
    safe_bind (panicFree_driveRekeyControlPlane S) fun _ =>
      safe_bind (panicFree_flushRekeyOutgoing S) fun _ => panicFree_finishRekey S
  dsimp only
  split
  · exact safe_bind (panicFree_modify fun _ => rfl) fun _ => hrest
  · exact hrest

/-! ### The main track -/

lemma panicFree_allocateIp : PanicFree S (allocateIp S) := by
  refine safe_get_bind fun w hw => ?_
  dsimp only
  split
  · exact panicFree_bail _ w hw
  · exact safeAt_bind (safeAt_set hw) fun _ => safe_pure _

lemma panicFree_allocateIpV6 : PanicFree S (allocateIpV6 S) := by
  refine safe_get_bind fun w hw => ?_
  rcases hcur : w.tab.nextPoolIpV6 with _ | ip
  · exact safe_pure _ w hw
  obtain ⟨stop, hstop⟩ := Option.isSome_iff_exists.mp (hw (by rw [hcur]; rfl))
  rw [hstop]
  dsimp only
  split
  · exact panicFree_bail _ w hw
  · exact safeAt_bind (safeAt_set fun _ => by rw [hstop]; rfl) fun _ => safe_pure _

lemma panicFree_chooseIp (cc : Option ClientConfig) : PanicFree S (chooseIp S cc) := by
  refine safe_get_bind fun w hw => ?_
  split
  · split
    · exact panicFree_bail _ w hw
    · exact safe_pure _ w hw
  · exact panicFree_bail _ w hw
  · exact panicFree_allocateIp S w hw

lemma panicFree_assignIp (addr : SocketAddr) (cc : Option ClientConfig) :
    PanicFree S (assignIp S addr cc) :=
  safe_bind (panicFree_chooseIp S cc) fun _ =>
    safe_bind (safe_modify fun _ hw => hw) fun _ => safe_pure _

lemma panicFree_assignIpV6 (addr : SocketAddr) : PanicFree S (assignIpV6 S addr) := by
  refine safe_bind (panicFree_allocateIpV6 S) fun ip6 => ?_
  rcases ip6 with _ | v6
  · exact safe_pure _
  · exact safe_bind (safe_modify fun _ hw => hw) fun _ => safe_pure _

lemma panicFree_handlePushRequest (addr : SocketAddr) : PanicFree S (handlePushRequest S addr) := by
  refine safe_get_bind fun w hw => safeAt_bind (panicFree_assignIp S addr _ w hw) fun ip => ?_
  refine safe_bind (panicFree_assignIpV6 S addr) fun ip6 => ?_
  exact safe_bind (panicFree_sendPlaintext S _) fun _ => panicFree_modify fun _ => rfl

lemma panicFree_installPrfSlot (keyId : UInt8) : PanicFree S (installPrfSlot S keyId) := by
  refine safe_get_bind fun w hw => ?_
  exact safeAt_bind ((noPanic_prfSlot _ _ _).panicFree w hw) fun _ _ _ => safeAt_set hw

lemma panicFree_handleKeyMethod2 (km : ClientKeyMethod2) : PanicFree S (handleKeyMethod2 S km) := by
  refine safe_bind (panicFree_modify fun _ => rfl) fun _ => ?_
  refine safe_bind (panicFree_installPrfSlot S 0) fun _ => ?_
  refine safe_get_bind fun w hw => safeAt_bind (panicFree_sendPlaintext S _ w hw) fun _ => ?_
  exact panicFree_modify fun _ => rfl

lemma safeAt_drainPlaintext {w : World Conn} (hw : Paired S w.tab) {n : ℕ}
    (h : n ≤ w.sess.tls.plaintextIn.length) :
    SafeAt (fun w => Paired S w.tab) Err.IsPanic (drainPlaintext n) w := by
  rw [SafeAt, drainPlaintext_of_le h]
  exact ⟨hw, fun _ h => by cases h⟩

lemma panicFree_driveRound (addr : SocketAddr) : PanicFree S (driveRound S addr) := by
  refine safe_get_bind fun w hw => ?_
  split
  -- what is drained is at most what was parsed, so the drain stays in range
  · refine ((noPanic_tryParse _).panicFree w hw).bind fun pop t h _ => ?_
    obtain ⟨hpop, rfl⟩ := ofExcept_eq_ok.mp h
    rcases pop with ⟨km, n⟩ | _
    · refine safeAt_bind (safeAt_drainPlaintext S hw (ClientKeyMethod2.tryParse_ready hpop).2)
        fun _ => ?_
      exact safe_bind (panicFree_handleKeyMethod2 S km) fun _ => safe_pure _
    · exact safe_pure _ w hw
  · rcases hpop : tryPopAscii w.sess.tls.plaintextIn with ⟨msg, n⟩ | _
    · refine safeAt_bind (safeAt_drainPlaintext S hw (tryPopAscii_ready hpop).2) fun _ => ?_
      dsimp only
      split
      · exact safe_bind (panicFree_handlePushRequest S addr) fun _ => safe_pure _
      · exact safe_pure _
    · exact safe_pure _ w hw
  · rcases hpop : tryPopAscii w.sess.tls.plaintextIn with ⟨msg, n⟩ | _
    · refine safeAt_bind (safeAt_drainPlaintext S hw (tryPopAscii_ready hpop).2) fun _ => ?_
      split
      · exact safe_bind (panicFree_modify fun _ => rfl) fun _ => safe_pure _
      · exact safe_pure _
    · exact safe_pure _ w hw
  · exact safe_pure _ w hw

lemma panicFree_driveControlPlane (addr : SocketAddr) : PanicFree S (driveControlPlane S addr) := by
  have hloop (fuel : ℕ) : PanicFree S (driveLoop S addr fuel) := by
    induction fuel with
    | zero => exact safe_pure _
    | succ fuel ih =>
      refine safe_bind (panicFree_driveRound S addr) fun more => ?_
      split
      · exact ih
      · exact safe_pure _
  exact safe_get_bind fun w hw => hloop _ w hw

lemma panicFree_handleMainControl (addr : SocketAddr) (ctrl : ControlPacket) :
    PanicFree S (handleMainControl S addr ctrl) := by
  rw [handleMainControl]
  refine safe_get_bind fun w hw => ?_
  have hfed := noPanic_feed S w.sess.tls ctrl.payload
  rcases hfeed : w.sess.tls.feed S.rustls ctrl.payload with ⟨tls, fed⟩
  rw [hfeed] at hfed
  refine safeAt_bind (safeAt_put hw rfl) fun _ => ?_
  refine safe_bind (panicFree_context _ hfed) fun _ => ?_
  have hrest : PanicFree S (do driveControlPlane S addr; flushOutgoing S) :=
    safe_bind (panicFree_driveControlPlane S addr) fun _ => panicFree_flushOutgoing S
  dsimp only
  split
  · exact safe_bind (panicFree_modify fun _ => rfl) fun _ => hrest
  · exact hrest

/-! ### Dispatch -/

lemma panicFree_acceptControl (ctrl : ControlPacket) (replayPid : Option UInt32) :
    PanicFree S (acceptControl ctrl replayPid : M Conn Unit) := by
  refine safe_bind (panicFree_modify fun _ => rfl) fun _ => safe_bind ?_ fun _ =>
    safe_bind ?_ fun _ => ?_
  · rcases replayPid with _ | pid
    · exact safe_pure _
    · rw [checkReplay]
      refine safe_get_bind fun w hw => ?_
      rcases w.sess.tlsAuthReplay.checkAndSet pid with ⟨ok, replay⟩
      refine safeAt_bind (safeAt_put hw rfl) fun _ => ?_
      split
      · exact safe_pure _
      · exact panicFree_bail _
  · rw [processAcks]
    split
    · exact safe_pure _
    · exact panicFree_modify fun _ => rfl
  · rcases ctrl.packetId with _ | pid
    · exact safe_pure _
    · exact panicFree_modify fun _ => rfl

lemma panicFree_handleSoftReset (ctrl : ControlPacket) : PanicFree S (handleSoftReset S ctrl) := by
  refine safe_get_bind fun w hw => ?_
  split
  · exact safe_pure _ w hw
  split
  · exact safe_pure _ w hw
  split
  · exact panicFree_bail _ w hw
  · exact safeAt_bind (safeAt_put hw rfl) fun _ => panicFree_sendAndTrack S _

lemma panicFree_dispatch (addr : SocketAddr) (ctrl : ControlPacket) :
    PanicFree S (dispatch S addr ctrl) := by
  rw [dispatch]
  split
  · refine safe_get_bind fun w hw => ?_
    split
    · exact panicFree_handleRekeyControl S ctrl w hw
    · exact panicFree_handleMainControl S addr ctrl w hw
  · exact panicFree_handleSoftReset S ctrl
  · exact safe_pure _

lemma panicFree_handleLocked (addr : SocketAddr) (ctrl : ControlPacket)
    (replayPid : Option UInt32) : PanicFree S (handleLocked S addr ctrl replayPid) :=
  safe_bind (panicFree_acceptControl S ctrl replayPid) fun _ => panicFree_dispatch S addr ctrl

lemma panicFree_greet (ctrl : ControlPacket) : PanicFree S (greet S ctrl) :=
  safe_get_bind fun _ hw =>
    safeAt_bind (safeAt_put hw rfl) fun _ => panicFree_sendAndTrack S _

end Control

/-! ### The data plane and the tasks -/

section Tasks

variable (S)

lemma SlotTable.isSome_of_position {t : SlotTable} {keyId : UInt8} {i : Fin 2}
    (h : t.position keyId = some i) : (t.slots i).isSome := by
  have hmap : (t.slots i).map KeySlot.keyId = some keyId := by
    unfold SlotTable.position at h
    split at h
    · rwa [← Option.some.inj h]
    split at h
    · rwa [← Option.some.inj h]
    · cases h
  rcases hi : t.slots i with _ | slot
  · rw [hi] at hmap
    cases hmap
  · rfl

lemma panicFree_decryptLocked (pkt : Bytes) : PanicFree S (decryptLocked S pkt) := by
  intro w hw
  refine ((noPanic_dataParse pkt).panicFree w hw).bind fun dp t h _ => ?_
  obtain ⟨hdp, rfl⟩ := ofExcept_eq_ok.mp h
  refine safeAt_bind ((noPanic_slice (Nat.zero_le 8) (dataParse_ok hdp)).panicFree w hw)
    fun aad => safe_get_bind fun w hw => ?_
  rcases hpos : w.sess.position dp.keyId with _ | i
  · exact panicFree_bail _ w hw
  dsimp only
  obtain ⟨slot, hslot⟩ := Option.isSome_iff_exists.mp (SlotTable.isSome_of_position hpos)
  rw [hslot]
  dsimp only
  refine safeAt_bind ((noPanic_open _ _ _ _ _).panicFree w hw) fun plaintext v hv => ?_
  refine safeAt_bind (safeAt_set hw) fun _ => ?_
  split
  · exact panicFree_bail _
  · exact safe_bind (panicFree_modify fun _ => rfl) fun _ => safe_pure _

lemma panicFree_decryptAndForward (pkt : Bytes) : PanicFree S (decryptAndForward S pkt) := by
  refine safe_bind (panicFree_decryptLocked S pkt) fun plaintext => safe_get_bind fun w hw => ?_
  split
  · exact safe_pure _ w hw
  split
  · exact panicFree_emit S _ w hw
  · exact panicFree_bail _ w hw

variable {S}

lemma panicFree_buildDataPacket (hp : S.prims.Sized) (plaintext : Bytes) :
    PanicFree S (buildDataPacket S plaintext) := by
  refine safe_get_bind fun w hw => ?_
  rcases w.sess.activeSlot with _ | slot
  · exact panicFree_bail _ w hw
  refine safeAt_bind (safeAt_put hw rfl) fun _ => ?_
  exact safe_bind (noPanic_seal hp _ _ _ _).panicFree fun _ => safe_pure _

lemma panicFree_sendData (hp : S.prims.Sized) (plaintext : Bytes) :
    PanicFree S (do transportSend (← buildDataPacket S plaintext)) :=
  safe_bind (panicFree_buildDataPacket hp plaintext) fun _ => panicFree_transportSend S _

lemma panicFree_forwardLocked (hp : S.prims.Sized) (ipPkt : Bytes) :
    PanicFree S (forwardLocked S ipPkt) := by
  refine safe_get_bind fun w hw => ?_
  split
  · exact safe_pure _ w hw
  · exact panicFree_sendData hp ipPkt w hw

lemma panicFree_pingTick (hp : S.prims.Sized) : PanicFree S (pingTick S) := by
  refine safe_get_bind fun w hw => ?_
  split
  · exact safe_pure _ w hw
  · exact panicFree_sendData hp pingPayload w hw

variable (S)

lemma panicFree_rekeyTick : PanicFree S (rekeyTick S) := by
  refine safe_get_bind fun w hw => ?_
  split
  · exact safe_pure _ w hw
  split
  · exact safe_pure _ w hw
  split
  · exact safe_pure _ w hw
  · exact safeAt_bind (safeAt_put hw rfl) fun _ => panicFree_sendAndTrack S _

lemma panicFree_rewrap (stale : List Bytes) : PanicFree S (rewrap S stale) := by
  induction stale with
  | nil => exact safe_pure _
  | cons inner rest ih =>
    refine safe_bind (PanicFree.recover ?_ _) fun wire => safe_bind ih fun _ => safe_pure _
    exact safe_bind (panicFree_wrapForWire S inner) fun _ => safe_pure _

lemma panicFree_retransmitTick : PanicFree S (retransmitTick S) := by
  refine safe_get_bind fun w hw => safeAt_bind (safeAt_put hw rfl) fun _ => ?_
  refine safe_bind (panicFree_rewrap S _) fun wires => safe_forM fun bytes _ => ?_
  exact PanicFree.recover (panicFree_transportSend S bytes) ()

lemma panicFree_shutdownClient : PanicFree S (shutdownClient S) := by
  refine safe_get_bind fun w hw => ?_
  split
  · exact safe_pure _ w hw
  · exact safe_bind (panicFree_sendPlaintext S _) (fun _ => panicFree_flushOutgoing S) w hw

end Tasks

/-! ### Events -/

section Events

variable (S) (addr : SocketAddr)

def Event.outcome (w : World Conn) : Event Conn → Res Unit
  | .control env ctrl replayPid => (handleLocked S addr ctrl replayPid { w with env }).1
  | .data env pkt => (decryptAndForward S pkt { w with env }).1
  | .tun env ipPkt => (forwardLocked S ipPkt { w with env }).1
  | .ping env => (pingTick S { w with env }).1
  | .rekey env => (rekeyTick S { w with env }).1
  | .retransmit env => (retransmitTick S { w with env }).1
  | .shutdown env => (shutdownClient S { w with env }).1
  | .shared _ => .ok ()

variable {S addr}

lemma PanicFree.noPanic {m : M Conn α} (h : PanicFree S m) {w : World Conn}
    (hw : Paired S w.tab) : Paired S (m w).2.tab ∧ NoPanic (m w).1 :=
  ⟨(h w hw).1, fun msg hm => (h w hw).2 _ hm ⟨msg, rfl⟩⟩

lemma event_noPanic (hp : S.prims.Sized) {w : World Conn} (hw : Paired S w.tab) {e : Event Conn}
    (he : ∀ tab, e ≠ .shared tab) :
    Paired S (step S addr w e).tab ∧ NoPanic (e.outcome S addr w) := by
  cases e with
  | control env ctrl replayPid =>
    exact (panicFree_handleLocked S addr ctrl replayPid).noPanic (w := { w with env }) hw
  | data env pkt => exact (panicFree_decryptAndForward S pkt).noPanic (w := { w with env }) hw
  | tun env ipPkt => exact (panicFree_forwardLocked hp ipPkt).noPanic (w := { w with env }) hw
  | ping env => exact (panicFree_pingTick hp).noPanic (w := { w with env }) hw
  | rekey env => exact (panicFree_rekeyTick S).noPanic (w := { w with env }) hw
  | retransmit env => exact (panicFree_retransmitTick S).noPanic (w := { w with env }) hw
  | shutdown env => exact (panicFree_shutdownClient S).noPanic (w := { w with env }) hw
  | shared tab => exact absurd rfl (he tab)

end Events

/-! ### The server -/

section Server

variable {s s' : Server Conn}

variable (S) in
def Server.outcome (s : Server Conn) (e : ServerEvent Conn) : Res Unit :=
  match s.opening e, s.worksOn e with
  | some o, _ => (greet S o.ctrl
      ⟨newSession o.ctrl o.replayPid o.peerId o.transport o.conn o.env, o.tab, o.env, []⟩).1
  | none, some (addr, w, v) => v.outcome S addr w
  | none, none => .ok ()

lemma worksOn_tab {e : ServerEvent Conn} {addr : SocketAddr} {w : World Conn} {v : Event Conn}
    (h : s.worksOn e = some (addr, w, v)) : w.tab = s.tab ∧ ∀ tab, v ≠ .shared tab := by
  cases e with
  | control | reap | close => cases h
  | advance | forward =>
    simp only [Server.worksOn] at h
    split at h
    · obtain ⟨o, -, rfl, rfl⟩ := locked_eq h
      exact ⟨rfl, fun _ hv => by cases hv⟩
    · cases h
  | visit addr' ref env v' =>
    simp only [Server.worksOn] at h
    split at h
    · rename_i hvisit
      obtain ⟨o, -, rfl, rfl⟩ := locked_eq h
      exact ⟨rfl, fun tab hv => by rw [hv] at hvisit; cases hvisit⟩
    · cases h

lemma opening_tab {e : ServerEvent Conn} {o : Opening Conn} (h : s.opening e = some o) :
    o.tab = s.tab := by
  cases e with
  | advance i env =>
    simp only [Server.opening] at h
    split at h
    · exact congrArg Opening.tab (Option.some.inj h).symm
    · cases h
  | _ => cases h

lemma server_noPanic (hp : S.prims.Sized) (h : Paired S s.tab) (e : ServerEvent Conn) :
    NoPanic (s.outcome S e) := by
  unfold Server.outcome
  rcases ho : s.opening e with _ | o
  · rcases hw : s.worksOn e with _ | ⟨addr, w, v⟩
    · exact noPanic_ok _
    · obtain ⟨htab, hv⟩ := worksOn_tab hw
      exact (event_noPanic hp (htab ▸ h) hv).2
  · have htab := opening_tab ho
    exact ((panicFree_greet S o.ctrl).noPanic (htab ▸ h)).2

lemma paired_underLock (hp : S.prims.Sized) (h : Paired S s.tab) (addr : SocketAddr) (ref : Ref)
    (env : Env Conn) {v : Event Conn} (hv : ∀ tab, v ≠ .shared tab) :
    Paired S (underLock S s addr ref env v).tab := by
  rcases ho : s.heap[ref]? with _ | o
  · rw [underLock_of_none ho]
    exact h
  · rw [underLock_of_some ho]
    exact (event_noPanic hp (w := ⟨o.sess, s.tab, env, []⟩) h hv).1

lemma Acts.cursor {t : Task} {st : Option Stage} (ha : Acts s t s' st)
    (hl : ∀ ref ctrl replayPid, t.stage ≠ .locked ref ctrl replayPid) :
    s'.tab.nextPoolIpV6 = s.tab.nextPoolIpV6 := by
  cases ha with
  | handled ht => exact absurd ht (hl _ _ _)
  | op ht =>
    rename_i op _
    cases op <;> rfl
  | _ => rfl

lemma paired_next (hp : S.prims.Sized) (h : Paired S s.tab) (env : Env Conn) (t : Task) :
    Paired S (t.next S env s).1.tab := by
  by_cases hl : ∃ ref ctrl replayPid, t.stage = .locked ref ctrl replayPid
  · obtain ⟨ref, ctrl, replayPid, ht⟩ := hl
    rw [Task.next, ht]
    exact paired_underLock hp h _ _ _ fun _ hv => by cases hv
  · have hcur := (next_acts (S := S) env s t).cursor fun ref ctrl replayPid ht =>
      hl ⟨ref, ctrl, replayPid, ht⟩
    rwa [Paired, hcur]

lemma paired_serve (hp : S.prims.Sized) (h : Paired S s.tab) (e : ServerEvent Conn) :
    Paired S (serve S s e).tab := by
  cases e with
  | control | reap | close => exact h
  | advance i env =>
    simp only [serve]
    split
    · exact paired_next hp h env _
    · exact h
  | forward env ipPkt =>
    simp only [serve]
    split
    · exact h
    · exact paired_underLock hp h _ _ _ fun _ hv => by cases hv
  | visit addr ref env v =>
    simp only [serve]
    split
    · rename_i hvisit
      exact paired_underLock hp h _ _ _ fun _ hv => by rw [hv] at hvisit; cases hvisit
    · exact h

end Server

/-! ### The network -/

section Net

variable (S) (peer : ℕ → SocketAddr)

/-- A call of a receive loop, up to the task or the parcel it makes. -/
def Server.call (s : Server Conn) : Call → Res Unit
  | .routeData pkt => do
    let _ ← Literal.routeData s pkt
  | .handleControlPacket _ pkt _ _ => do
    let _ ← ControlPacket.parse pkt

/-- How the processing of an event ends. -/
def Net.outcome (n : Net Conn) : NetEvent Conn → Res Unit
  | .packet _ transport pkt => do
    let calls ← Literal.receive S peer transport pkt
    calls.forM n.server.call
  | .forward env ipPkt => do
    let _ ← Literal.tunDestination ipPkt
    n.server.outcome S (.forward env ipPkt)
  | e =>
    match n.event S peer e with
    | none => .ok ()
    | some v => n.server.outcome S v

variable {S peer}

lemma noPanic_call (s : Server Conn) (c : Call) : NoPanic (s.call c) := by
  rcases c with pkt | ⟨addr, pkt, replayPid, transport⟩
  · rw [Server.call, Literal.routeData_eq]
    exact noPanic_ok _
  · exact (noPanic_controlParse pkt).bind fun _ _ => noPanic_ok _

lemma noPanic_forM {l : List α} {f : α → Res Unit} (h : ∀ a, NoPanic (f a)) :
    NoPanic (l.forM f) := by
  induction l with
  | nil => exact noPanic_ok _
  | cons a t ih => exact (h a).bind fun _ _ => ih

lemma net_noPanic (hp : S.prims.Sized) {n : Net Conn} (h : Paired S n.server.tab)
    (e : NetEvent Conn) : NoPanic (n.outcome S peer e) := by
  cases e with
  | packet tag transport pkt =>
    rw [Net.outcome, Literal.receive_eq]
    exact noPanic_forM (noPanic_call n.server)
  | forward env ipPkt =>
    rw [Net.outcome, Literal.tunDestination_eq]
    exact server_noPanic hp h _
  | work | ended | reap | advance | tick =>
    simp only [Net.outcome]
    split
    · exact noPanic_ok _
    · exact server_noPanic hp h _

lemma paired_netStep (hp : S.prims.Sized) {n : Net Conn} (h : Paired S n.server.tab)
    (e : NetEvent Conn) : Paired S (netStep S peer n e).server.tab := by
  simp only [netStep, Net.nextServer]
  split
  · exact h
  · exact paired_serve hp h _

/-- **Packet processing never panics.** Whatever has reached the server before, with whichever
envelope, the processing of a datagram, of a frame of a TCP stream, of a packet from the TUN and
of everything these have led to returns or hands an error back; and where the model stands for
accesses of the code, they are in bounds. -/
theorem processing_never_panics (S : VpnServer Conn) (p : Pools) (hS : S.Built p)
    (hp : S.prims.Sized) (peer : ℕ → SocketAddr) (es : List (NetEvent Conn)) (e : NetEvent Conn) :
    NoPanic ((run (netStep S peer) (Net.new p) es).outcome S peer e) ∧
      Literal.InBounds S.prims := by
  have hstart : Paired S (Net.new p : Net Conn).server.tab := by
    intro h
    rw [hS.poolEndV6, Option.isSome_map]
    exact Option.isSome_map.symm.trans h
  have hrun : Paired S (run (netStep S peer) (Net.new p) es).server.tab :=
    run_invariant (I := fun n : Net Conn => Paired S n.server.tab)
      (fun _ e h => paired_netStep hp h e) hstart
  exact ⟨net_noPanic hp hrun e, Literal.inBounds hp⟩

end Net

def tagServer : VpnServer Plain :=
  { plainServer with
    prims := tagPrims
    tlsCrypt := some (.fromStaticKeyServer (List.replicate 256 0)) }

/-- Packets that are cut short, with the envelope and without it. -/
theorem processing_never_panics_short :
    ((Net.new plainPools).outcome plainServer (fun _ => plainAddr)
      (.packet 0 (.udp plainAddr) [0x38, 1])).isOk = false ∧
    (unwrapControl tagServer [0x38, 1]).isOk = false ∧
    NoPanic ((run (netStep tagServer fun _ => plainAddr) (Net.new plainPools)
        [.packet 0 (.udp plainAddr) [0x38, 1], .packet 1 (.tcp 0) [0x48, 1]]).outcome tagServer
      (fun _ => plainAddr) (.forward (plainEnv 1) [0x45, 0])) ∧
    Literal.InBounds tagPrims := by
  refine ⟨?_, by decide +kernel,
    processing_never_panics tagServer plainPools ⟨rfl, rfl, rfl⟩ sized_tagPrims _ _ _⟩
  -- by its equation, the receive loop runs without its buffer of 65535 bytes
  rw [Net.outcome, Literal.receive_eq]
  decide +kernel

end Javs
