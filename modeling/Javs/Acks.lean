import Javs.Flush

/-!
When an inbound control packet is acknowledged.

Its packet id becomes a pending acknowledgement the first time it is received, and goes out with
the flush at the end of its handler. A repeated packet is not noted again, so the client that
repeats it because the acknowledgement was lost gets none. On the rekey track acknowledgements
only travel with output of its TLS context; if there is none, they wait.
-/

namespace Javs

open Lib Lib.Proc M Relation

variable {Conn : Type}

/-! ### What happens before the flush -/

def Silent (w w' : World Conn) : Prop := ∃ es, w'.log = w.log ++ es ∧ sentPackets es = []

def Quiet (w w' : World Conn) : Prop :=
  w'.sess.pendingAcks = w.sess.pendingAcks ∧ Silent w w'

section Quiet

variable {S : VpnServer Conn} {addr : SocketAddr} {w w' w'' : World Conn}

lemma Quiet.refl (w : World Conn) : Quiet w w := ⟨rfl, [], (List.append_nil _).symm, rfl⟩

lemma Quiet.of_log (hp : w'.sess.pendingAcks = w.sess.pendingAcks) (hl : w'.log = w.log) :
    Quiet w w' := ⟨hp, [], by rw [hl, List.append_nil], rfl⟩

lemma Quiet.tell {e : Effect} (hp : w'.sess.pendingAcks = w.sess.pendingAcks)
    (hl : w'.log = w.log ++ [e]) (he : e.sent? = none) : Quiet w w' :=
  ⟨hp, [e], hl, by simp [sentPackets, he]⟩

lemma Quiet.trans (h : Quiet w w') (h' : Quiet w' w'') : Quiet w w'' := by
  obtain ⟨hp, es, hl, hs⟩ := h
  obtain ⟨hp', es', hl', hs'⟩ := h'
  exact ⟨hp'.trans hp, es ++ es', by rw [hl', hl, List.append_assoc],
    by rw [sentPackets_append, hs, hs', List.nil_append]⟩

def IsQuiet {α : Type} (m : M Conn α) : Prop := ∀ w, Quiet w (m w).2

section Rules

variable {α β : Type}

lemma quiet_pure (a : α) : IsQuiet (pure a : M Conn α) := fun w => .refl w

lemma quiet_throw (e : Err) : IsQuiet (throw e : M Conn α) := fun w => .refl w

lemma quiet_ofExcept (x : Res α) : IsQuiet (Proc.ofExcept x : M Conn α) := fun w => .refl w

lemma quiet_modify {f : World Conn → World Conn} (h : ∀ w, Quiet w (f w)) :
    IsQuiet (modify f : M Conn Unit) := h

lemma quiet_modifySess {f : Session Conn → Session Conn}
    (h : ∀ s, (f s).pendingAcks = s.pendingAcks) : IsQuiet (modifySess f) :=
  fun w => .of_log (h w.sess) rfl

lemma quiet_bind {m : M Conn α} {f : α → M Conn β} (hm : IsQuiet m) (hf : ∀ a, IsQuiet (f a)) :
    IsQuiet (m >>= f) := by
  intro w
  have hw := hm w
  rcases hms : m w with ⟨e | a, v⟩ <;> rw [hms] at hw
  · rw [bind_error hms]
    exact hw
  · rw [bind_ok hms]
    exact hw.trans (hf a v)

lemma quiet_get {f : World Conn → M Conn β} (h : ∀ w, Quiet w (f w w).2) :
    IsQuiet (get >>= f) := h

lemma Quiet.put {v : World Conn} (h : Quiet w v) {f : Unit → M Conn β} (hf : IsQuiet (f ())) :
    Quiet w ((put v >>= f) w').2 := h.trans (hf v)

end Rules

lemma quiet_drainPlaintext (k : ℕ) : IsQuiet (drainPlaintext k : M Conn Unit) := by
  refine quiet_get fun w => ?_
  rcases w.sess.tls.drainTo k with e | tls
  · exact .refl w
  · exact .of_log rfl rfl

lemma quiet_sendPlaintext (data : Bytes) : IsQuiet (sendPlaintext S data) := by
  refine quiet_get fun w => Quiet.put (.of_log rfl rfl) ?_
  split
  · exact quiet_pure _
  · exact quiet_throw _

lemma quiet_handleKeyMethod2 (km : ClientKeyMethod2) : IsQuiet (handleKeyMethod2 S km) := by
  refine quiet_bind (quiet_modifySess fun _ => rfl) fun _ => ?_
  refine quiet_bind (quiet_get fun w => ?_) fun _ => ?_
  · rcases w.sess.prfSlot S.prims 0 with e | slot
    · exact .refl w
    · exact .tell rfl rfl rfl
  · refine quiet_get fun w => quiet_bind (quiet_sendPlaintext _) (fun _ => ?_) w
    exact quiet_modifySess fun _ => rfl

lemma quiet_chooseIp (cc : Option ClientConfig) : IsQuiet (chooseIp S cc) := by
  intro w
  rcases chooseIp_cases (S := S) cc w with ⟨e, h⟩ | ⟨ip, -, h⟩ | ⟨-, h⟩ <;> rw [h] <;>
    exact .of_log rfl rfl

lemma quiet_assignIp (cc : Option ClientConfig) : IsQuiet (assignIp S addr cc) :=
  quiet_bind (quiet_chooseIp cc) fun _ => quiet_bind (quiet_modify fun _ => .tell rfl rfl rfl)
    fun _ => quiet_pure _

lemma quiet_assignIpV6 : IsQuiet (assignIpV6 S addr) := by
  refine quiet_bind (fun w => ?_) fun ip6 => ?_
  · rcases allocateIpV6_cases (S := S) w with ⟨e, h⟩ | h | ⟨ip, e, -, -, -, h⟩ <;> rw [h] <;>
      exact .of_log rfl rfl
  · cases ip6 with
    | none => exact quiet_pure _
    | some ip => exact quiet_bind (quiet_modify fun _ => .tell rfl rfl rfl) fun _ => quiet_pure _

lemma quiet_handlePushRequest : IsQuiet (handlePushRequest S addr) := by
  refine quiet_get fun w => ?_
  refine quiet_bind (quiet_assignIp _) (fun ip => ?_) w
  refine quiet_bind quiet_assignIpV6 fun ip6 => ?_
  exact quiet_bind (quiet_sendPlaintext _) fun _ => quiet_modifySess fun _ => rfl

lemma quiet_driveRound : IsQuiet (driveRound S addr) := by
  refine quiet_get fun w => ?_
  rcases w.sess.state <;> dsimp only
  case keyExchange =>
    refine quiet_bind (quiet_ofExcept _) (fun pop => ?_) w
    rcases pop with ⟨km, k⟩ | _
    · exact quiet_bind (quiet_drainPlaintext k) fun _ =>
        quiet_bind (quiet_handleKeyMethod2 km) fun _ => quiet_pure _
    · exact quiet_pure _
  case pushPending =>
    rcases tryPopAscii w.sess.tls.plaintextIn with ⟨msg, k⟩ | _
    · refine quiet_bind (quiet_drainPlaintext k) (fun _ => ?_) w
      split
      · exact quiet_bind quiet_handlePushRequest fun _ => quiet_pure _
      · exact quiet_pure _
    · exact .refl w
  case established =>
    rcases tryPopAscii w.sess.tls.plaintextIn with ⟨msg, k⟩ | _
    · refine quiet_bind (quiet_drainPlaintext k) (fun _ => ?_) w
      split
      · exact quiet_bind (quiet_modifySess fun _ => rfl) fun _ => quiet_pure _
      · exact quiet_pure _
    · exact .refl w
  all_goals exact .refl w

lemma quiet_driveLoop (fuel : ℕ) : IsQuiet (driveLoop S addr fuel) := by
  induction fuel with
  | zero => exact quiet_pure _
  | succ fuel ih =>
    refine quiet_bind quiet_driveRound fun goOn => ?_
    split
    · exact ih
    · exact quiet_pure _

lemma quiet_driveControlPlane : IsQuiet (driveControlPlane S addr) :=
  quiet_get fun w => quiet_driveLoop _ w

lemma context_ok {α : Type} (msg : String) (a : α) :
    (context msg (.ok a) : M Conn α) = pure a := rfl

lemma quiet_context {α : Type} (msg : String) (x : Res α) : IsQuiet (context msg x : M Conn α) := by
  rcases x with ⟨_ | _⟩ | a <;> exact fun w => .refl w

/-- If the program ends well, its last part is `g`, and nothing before it takes
acknowledgements or sends packets. -/
def EndsWith (m g : M Conn Unit) : Prop :=
  ∀ w, (m w).1 = .ok () → ∃ u, Quiet w u ∧ m w = g u

lemma endsWith_self (g : M Conn Unit) : EndsWith g g := fun w _ => ⟨w, .refl w, rfl⟩

lemma endsWith_bind {α : Type} {m : M Conn α} {f : α → M Conn Unit} {g : M Conn Unit}
    (hm : IsQuiet m) (hf : ∀ a, EndsWith (f a) g) : EndsWith (m >>= f) g := by
  intro w hok
  have hw := hm w
  rcases hms : m w with ⟨e | a, v⟩ <;> rw [hms] at hw
  · rw [bind_error hms] at hok
    cases hok
  · rw [bind_ok hms] at hok ⊢
    obtain ⟨u, hu, he⟩ := hf a v hok
    exact ⟨u, hw.trans hu, he⟩

lemma Quiet.endsWith_put {v : World Conn} {f : Unit → M Conn Unit} {g : M Conn Unit}
    (h : Quiet w v) (hf : EndsWith (f ()) g) (hok : ((M.put v >>= f) w).1 = .ok ()) :
    ∃ u, Quiet w u ∧ (M.put v >>= f) w = g u := by
  obtain ⟨u, hu, he⟩ := hf v hok
  exact ⟨u, h.trans hu, he⟩

lemma handleMainControl_endsWith (ctrl : ControlPacket) :
    EndsWith (handleMainControl S addr ctrl) (flushOutgoing S) := by
  intro w
  unfold handleMainControl
  rw [get_bind]
  rcases w.sess.tls.feed S.rustls ctrl.payload with ⟨tls, fed⟩
  refine Quiet.endsWith_put (.tell rfl rfl rfl) (endsWith_bind (quiet_context _ _) fun _ => ?_)
  have hdrive : EndsWith (do driveControlPlane S addr; flushOutgoing S) (flushOutgoing S) :=
    endsWith_bind quiet_driveControlPlane fun _ => endsWith_self _
  split
  · refine endsWith_bind (quiet_modify fun u => .tell ?_ rfl rfl) fun _ => hdrive
    unfold Session.finalizeKeys
    split <;> rfl
  · exact hdrive

end Quiet

/-! ### The acknowledgements of a flush -/

/-- From `w` to `w'` a packet that acknowledges `id` is sent, exactly if `p`. -/
def Answers (id : UInt32) (w w' : World Conn) (p : Prop) : Prop :=
  ∃ es, w'.log = w.log ++ es ∧ ((∃ pkt ∈ sentPackets es, id ∈ pkt.acks) ↔ p)

section Answers

variable {S : VpnServer Conn} {w w' w'' : World Conn} {id : UInt32} {p : Prop}

lemma Answers.since (h : Answers id w w' p) :
    (∃ pkt ∈ sentPackets (w'.log.drop w.log.length), id ∈ pkt.acks) ↔ p := by
  obtain ⟨es, hl, hp⟩ := h
  rw [hl, List.drop_left, hp]

lemma Silent.answers (h : Silent w w') (h' : Answers id w' w'' p) : Answers id w w'' p := by
  obtain ⟨es, hl, hs⟩ := h
  obtain ⟨es', hl', hp⟩ := h'
  refine ⟨es ++ es', by rw [hl', hl, List.append_assoc], ?_⟩
  rw [sentPackets_append, hs]
  exact hp

lemma Answers.silent (h : Answers id w w' p) (h' : Silent w' w'') : Answers id w w'' p := by
  obtain ⟨es, hl, hp⟩ := h
  obtain ⟨es', hl', hs⟩ := h'
  refine ⟨es ++ es', by rw [hl', hl, List.append_assoc], ?_⟩
  rw [sentPackets_append, hs, List.append_nil]
  exact hp

lemma Loop.answers {keyId : UInt8} {cs : List Bytes} (h : Loop S keyId cs w (.ok ()) w')
    (hcs : cs ≠ []) (id : UInt32) : Answers id w w' (id ∈ w.sess.pendingAcks) := by
  obtain ⟨-, -, ⟨es, hl, hs⟩, -⟩ := h.complete ((lucky_eq_iff _ _).mp (h.result.mp rfl))
  obtain ⟨c, cs, rfl⟩ := List.exists_cons_of_ne_nil hcs
  refine ⟨es, hl, ?_⟩
  rw [hs.sent, fragments]
  constructor
  · rintro ⟨pkt, hpkt, hid⟩
    rcases List.mem_cons.mp hpkt with rfl | hrest
    · exact hid
    · rw [acks_fragments keyId _ rfl cs pkt hrest] at hid
      exact absurd hid List.not_mem_nil
  · exact fun hid => ⟨_, List.mem_cons_self, hid⟩

lemma flushOutgoing_answers (hok : (flushOutgoing S w).1 = .ok ()) (id : UInt32) :
    Answers id w (flushOutgoing S w).2 (id ∈ w.sess.pendingAcks) := by
  by_cases hout : mainOutput S w = []
  · by_cases hacks : w.sess.pendingAcks = []
    · rw [flushOutgoing_idle hout hacks]
      exact ⟨_, rfl, by simp [sentPackets, Effect.sent?, hacks]⟩
    · obtain ⟨r, v, es, hflush, hl, -, -, -, ⟨-, ⟨e, rfl⟩, -⟩ | ⟨-, -, hs⟩⟩ :=
        flushOutgoing_acks hout hacks
      · rw [hflush] at hok
        cases hok
      · rw [hflush]
        exact ⟨es, hl, by rw [hs.sent]; simp [Session.makeAck]⟩
  · have hloop := flushOutgoing_output hout
    rw [hok] at hloop
    exact hloop.answers (chunks_ne_nil hout) id

lemma flushRekeyOutgoing_answers (hok : (flushRekeyOutgoing S w).1 = .ok ()) (id : UInt32) :
    Answers id w (flushRekeyOutgoing S w).2 (id ∈ w.sess.pendingAcks ∧ rekeyOutput S w ≠ []) := by
  by_cases hout : rekeyOutput S w = []
  · obtain ⟨es, hl, hs⟩ := (flushRekeyOutgoing_idle hout).2.2.2
    exact ⟨es, hl, by simp [hs, hout]⟩
  · obtain ⟨keyId, hloop⟩ := flushRekeyOutgoing_output hout
    rw [hok] at hloop
    obtain ⟨es, hl, hp⟩ := hloop.answers (chunks_ne_nil hout) id
    exact ⟨es, hl, hp.trans (and_iff_left hout).symm⟩

end Answers

/-! ### The rekey track -/

def RekeyTrack.fed (S : VpnServer Conn) (rk : RekeyTrack Conn) (payload : Bytes) :
    RekeyTrack Conn :=
  let tls := (rk.tls.feed S.rustls payload).1
  { rk with
    tls
    state := if rk.state = .handshaking ∧ !tls.isHandshaking S.rustls then .keyExchange
      else rk.state }

/-- The track's context once a complete key exchange has been taken out of it and the reply
queued on it. -/
def RekeyTrack.exchanged (S : VpnServer Conn) (rk : RekeyTrack Conn) : TlsSession Conn :=
  if rk.state = .keyExchange then
    match ClientKeyMethod2.tryParse rk.tls.plaintextIn with
    | .ok (.ready _ n) => ((rk.tls.drain n).sendPlaintext S.rustls
        (serverKeyMethod2 S rk.serverRandom1 rk.serverRandom2)).1
    | _ => rk.tls
  else rk.tls

/-- The context has something to send in answer to `payload`. -/
def RekeyTrack.Replies (S : VpnServer Conn) (rk : RekeyTrack Conn) (payload : Bytes) : Prop :=
  (((rk.fed S payload).exchanged S).takeOutgoing S.rustls).2 ≠ []

section Rekey

variable {S : VpnServer Conn} {w : World Conn} {rk : RekeyTrack Conn}

lemma driveRekeyControlPlane_ok (hrk : w.sess.rekey = some rk)
    (hok : (driveRekeyControlPlane S w).1 = .ok ()) :
    Quiet w (driveRekeyControlPlane S w).2 ∧
      ∃ rk', (driveRekeyControlPlane S w).2.sess.rekey = some rk' ∧ rk'.tls = rk.exchanged S := by
  revert hok
  unfold RekeyTrack.exchanged
  rw [driveRekeyControlPlane_eq, get_bind, hrk]
  dsimp only
  by_cases hkx : rk.state = .keyExchange
  swap
  · rw [if_pos hkx, if_neg hkx]
    exact fun _ => ⟨.refl w, rk, hrk, rfl⟩
  rw [if_neg (not_not.mpr hkx), if_pos hkx]
  rcases ClientKeyMethod2.tryParse rk.tls.plaintextIn with e | ⟨km, n⟩ | _
  · exact fun hok => by cases hok
  · rw [bind_ok (ofExcept_apply _ _)]
    dsimp only
    rcases (rk.tls.drain n).sendPlaintext S.rustls
      (serverKeyMethod2 S rk.serverRandom1 rk.serverRandom2) with ⟨tls, _ | _⟩
    · exact fun hok => by cases hok
    · exact fun _ => ⟨⟨rfl, _, List.append_assoc .., rfl⟩, _, rfl, rfl⟩
  · exact fun _ => ⟨.refl w, rk, hrk, rfl⟩

lemma quiet_finishRekey : IsQuiet (finishRekey : M Conn Unit) := by
  rw [finishRekey_eq]
  refine quiet_get fun w => ?_
  rcases w.sess.rekey with _ | rk
  · exact .refl w
  · dsimp only
    split
    · exact .tell rfl rfl rfl
    · exact .refl w

lemma handleRekeyControl_answers {ctrl : ControlPacket} (hrk : w.sess.rekey = some rk)
    (hok : (handleRekeyControl S ctrl w).1 = .ok ()) (id : UInt32) :
    Answers id w (handleRekeyControl S ctrl w).2
      (id ∈ w.sess.pendingAcks ∧ rk.Replies S ctrl.payload) := by
  have hfed (u : World Conn) (hu : Quiet w u)
      (hrku : u.sess.rekey = some (rk.fed S ctrl.payload)) {m : M Conn Unit}
      (hm : m = do driveRekeyControlPlane S; flushRekeyOutgoing S; finishRekey)
      (hok : (m u).1 = .ok ()) :
      Answers id w (m u).2 (id ∈ w.sess.pendingAcks ∧ rk.Replies S ctrl.payload) := by
    subst hm
    rcases hd : driveRekeyControlPlane S u with ⟨e | _, v⟩
    · rw [bind_error hd] at hok
      cases hok
    obtain ⟨hq, rk', hrk', htls⟩ := driveRekeyControlPlane_ok hrku (by rw [hd])
    rw [hd] at hq hrk'
    rw [bind_ok hd] at hok ⊢
    rcases hf : flushRekeyOutgoing S v with ⟨e | _, v'⟩
    · rw [bind_error hf] at hok
      cases hok
    rw [bind_ok hf]
    have hout : rekeyOutput S v =
        (((rk.fed S ctrl.payload).exchanged S).takeOutgoing S.rustls).2 := by
      rw [rekeyOutput, hrk', ← htls]
    have hans := flushRekeyOutgoing_answers (S := S) (w := v) (by rw [hf]) id
    rw [hf, hout, (hu.trans hq).1] at hans
    exact (hu.trans hq).2.answers (hans.silent (quiet_finishRekey v').2)
  revert hok
  unfold handleRekeyControl
  rw [get_bind, hrk]
  dsimp only
  rw [put_bind]
  rcases hf : (rk.tls.feed S.rustls ctrl.payload).2 with e | _
  · rcases e with msg | msg <;> exact fun hok => by cases hok
  rw [context_ok, pure_bind]
  split
  · rename_i hdone
    rw [modify_bind]
    refine hfed _ ?_ ?_ rfl
    · exact ⟨rfl, _, List.append_assoc .., rfl⟩
    · simp only [RekeyTrack.fed, if_pos hdone]
  · rename_i hdone
    refine hfed _ ?_ ?_ rfl
    · exact .tell rfl rfl rfl
    · simp only [RekeyTrack.fed, if_neg hdone]

end Rekey

/-! ### Every inbound packet -/

section Inbound

variable (S : VpnServer Conn) (addr : SocketAddr)

lemma Session.mem_owed {s : Session Conn} {id : UInt32} :
    id ∈ s.owed (some id) ↔ id ∉ s.receivedPids ∨ id ∈ s.pendingAcks := by
  unfold Session.owed
  by_cases hid : id ∈ s.receivedPids
  · simp [hid]
  · simp [hid]

lemma silent_hear {w w' : World Conn} {ctrl : ControlPacket} (h : w'.abs = w.abs.hear ctrl) :
    Silent w w' := by
  have hl : w'.log = (w.abs.hear ctrl).log := congrArg Abs.log h
  unfold Abs.hear at hl
  split at hl
  · exact ⟨[], by rw [hl, List.append_nil]; rfl, rfl⟩
  · exact ⟨_, hl, rfl⟩

/-- **Which packets are acknowledged.** A `P_CONTROL_V1` that is handled to the end is
acknowledged exactly if its id is new or its acknowledgement still pending, and, on the rekey
track, the TLS context there has something to send. -/
theorem control_acknowledged (ctrl : ControlPacket) (replayPid : Option UInt32) (w : World Conn)
    {id : UInt32} (hop : ctrl.op = .controlV1) (hid : ctrl.packetId = some id)
    (hok : (handleLocked S addr ctrl replayPid w).1 = .ok ()) :
    (∃ pkt ∈ sentPackets ((handleLocked S addr ctrl replayPid w).2.log.drop w.log.length),
      id ∈ pkt.acks) ↔
    (id ∉ w.sess.receivedPids ∨ id ∈ w.sess.pendingAcks) ∧
      ∀ rk, w.sess.rekey = some rk → rk.keyId = ctrl.keyId → rk.Replies S ctrl.payload := by
  refine Answers.since ?_
  rcases hacc : accepts w replayPid
  · obtain ⟨e, w', h', -⟩ := acceptControl_rejected ctrl hacc
    rw [handleLocked, bind_error h'] at hok
    cases hok
  obtain ⟨v, hv, ha, -, hr, hp⟩ := handleLocked_dispatch S addr ctrl hacc
  have howed : id ∈ v.sess.pendingAcks ↔ id ∉ w.sess.receivedPids ∨ id ∈ w.sess.pendingAcks := by
    rw [hp, hid]
    exact Session.mem_owed
  rw [hv] at hok ⊢
  rw [← howed, ← hr]
  refine (silent_hear ha).answers ?_
  rcases hk : isRekey v.sess ctrl
  -- on the main track the flush takes all that is pending
  · rw [dispatch_main hop hk] at hok ⊢
    obtain ⟨u, hq, hu⟩ := handleMainControl_endsWith ctrl v hok
    rw [hu] at hok ⊢
    have hans := flushOutgoing_answers hok id
    rw [hq.1] at hans
    have hmain : ∀ rk, v.sess.rekey = some rk → rk.keyId = ctrl.keyId →
        rk.Replies S ctrl.payload := by
      intro rk hrk hkey
      rw [isRekey_iff.mpr ⟨rk, hrk, hkey⟩] at hk
      cases hk
    have hiff := and_iff_left (a := id ∈ v.sess.pendingAcks) hmain
    rw [hiff]
    exact hq.2.answers hans
  -- on the rekey track it does so only with output of that context
  · obtain ⟨rk, hrk, hkey⟩ := isRekey_iff.mp hk
    rw [dispatch_rekey hop hk] at hok ⊢
    have hans := handleRekeyControl_answers hrk hok id
    simpa [hrk, hkey] using hans

end Inbound

theorem control_acknowledged_exchange :
    let w := started plainServer plainOpening
    let ctrl := clientPacket .controlV1 0 1 (clientKm2 3)
    1 ∉ w.sess.receivedPids ∧
      ∃ pkt ∈ sentPackets ((handleLocked plainServer plainAddr ctrl none w).2.log.drop
        w.log.length), 1 ∈ pkt.acks := by
  intro w ctrl
  have hnew : 1 ∉ w.sess.receivedPids := by decide +kernel
  refine ⟨hnew, (control_acknowledged plainServer plainAddr ctrl none w rfl rfl ?_).mpr
    ⟨.inl hnew, ?_⟩⟩
  · decide +kernel
  · intro rk hrk
    cases hrk

/-- The first byte of a TLS record arrives again, because the acknowledgement was lost; and the
first byte of a record arrives for a rekey. Both are handled, and neither is acknowledged. -/
theorem repeated_not_acknowledged :
    let fragment := clientPacket .controlV1 0 1 [0x16]
    let w := run (step plainServer plainAddr) (started plainServer plainOpening)
      [.control (plainEnv 1) fragment none]
    let rekeyFragment := clientPacket .controlV1 1 3 [0x16]
    let v := run (step plainServer plainAddr) (started plainServer plainOpening)
      [establishing, .control (plainEnv 1) (clientPacket .controlSoftResetV1 1 2 []) none]
    ((∃ pkt ∈ sentPackets w.log, 1 ∈ pkt.acks) ∧
      (handleLocked plainServer plainAddr fragment none w).1.isOk = true ∧
      ∀ pkt ∈ sentPackets ((handleLocked plainServer plainAddr fragment none w).2.log.drop
        w.log.length), 1 ∉ pkt.acks) ∧
    (handleLocked plainServer plainAddr rekeyFragment none v).1.isOk = true ∧
      ∀ pkt ∈ sentPackets ((handleLocked plainServer plainAddr rekeyFragment none v).2.log.drop
        v.log.length), 3 ∉ pkt.acks := by
  decide +kernel

end Javs
