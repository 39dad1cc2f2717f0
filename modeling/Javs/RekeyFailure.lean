import Javs.Flush
import Javs.Rekey

/-!
What a failed rekey leaves behind.

A rekey is started by entering its track into the session, before anything is sent, and the track
is removed only when the rekey completes. Where an attempt fails, the active slot is still the one
it was, but the track stays; and while there is one, every `SOFT_RESET` of the client and every
tick of the server's rekey task is ignored. Only if the TLS connection for the rekey cannot be
created has the attempt not entered the track yet.
-/

namespace Javs

open Lib Lib.Proc M

variable {Conn : Type}

/-! ### Attempts -/

def freshTrack (keyId : UInt8) (conn : Conn) (env : Env Conn) : RekeyTrack Conn :=
  ⟨keyId, .new conn, .handshaking, env.random1, env.random2, false⟩

def RekeyDue (S : VpnServer Conn) (w : World Conn) : Prop :=
  S.cfg.renegSec.toNat * 1000 ≤ w.env.now - w.sess.lastRekeyAt

/-- An attempt to start a rekey, or to carry one on, with its outcome: a `SOFT_RESET` of the
client, a packet of the rekey track, or a tick of the server's rekey task. -/
inductive RekeyAttempt (S : VpnServer Conn) (addr : SocketAddr) (w : World Conn) :
    Except Err Unit × World Conn → Prop
  | softReset (ctrl : ControlPacket) (replayPid : Option UInt32)
      (hop : ctrl.op = .controlSoftResetV1) (hacc : accepts w replayPid = true)
      (hrk : w.sess.rekey = none) : RekeyAttempt S addr w (handleLocked S addr ctrl replayPid w)
  | control (ctrl : ControlPacket) (replayPid : Option UInt32) (hop : ctrl.op = .controlV1)
      (hacc : accepts w replayPid = true) (hrk : isRekey w.sess ctrl = true) :
      RekeyAttempt S addr w (handleLocked S addr ctrl replayPid w)
  | tick (hdue : RekeyDue S w) (hrk : w.sess.rekey = none) : RekeyAttempt S addr w (rekeyTick S w)

/-- The attempt fails in creating the TLS connection. -/
def NoConnection (w : World Conn) : Prop := w.sess.rekey = none ∧ w.env.conn = none

/-- The session can rekey: a `SOFT_RESET` of the client that passes the replay check, and a tick
of the rekey task after the interval, start a fresh rekey, if there is a TLS connection for it. -/
def CanRekey (S : VpnServer Conn) (addr : SocketAddr) (w : World Conn) : Prop :=
  ∀ (env : Env Conn) (conn : Conn), env.conn = some conn →
    (∀ (ctrl : ControlPacket) (replayPid : Option UInt32), ctrl.op = .controlSoftResetV1 →
      accepts w replayPid = true →
      (handleLocked S addr ctrl replayPid { w with env }).2.sess.rekey =
        some (freshTrack ctrl.keyId conn env)) ∧
    (RekeyDue S { w with env } → (rekeyTick S { w with env }).2.sess.rekey =
      some (freshTrack ((w.sess.activeKeyId + 1) &&& 0x07) conn env))

/-! ### The start of a rekey -/

section Start

variable {S : VpnServer Conn} {addr : SocketAddr} {w : World Conn}

/-- A rekey is started with `track`, and slots and state are left alone. -/
structure Starts (track : RekeyTrack Conn) (s s' : Session Conn) : Prop where
  rekey : s'.rekey = some track
  table : s'.toSlotTable = s.toSlotTable
  state : s'.state = s.state

lemma SentFrom.starts {track : RekeyTrack Conn} {s s' s'' : Session Conn} (h : Starts track s s')
    (h' : SentFrom s' s'') : Starts track s s'' := by
  obtain ⟨_, _, rfl⟩ := h'
  exact ⟨h.rekey, h.table, h.state⟩

lemma sendAndTrack_from {pkt : ControlPacket} (hid : pkt.packetId.isSome) (w : World Conn) :
    SentFrom w.sess (sendAndTrack S pkt w).2.sess := by
  obtain ⟨r, v, h, hfrom, -⟩ := sendAndTrack_apply (S := S) pkt hid w
  rw [h]
  exact hfrom

lemma handleSoftReset_starts {conn : Conn} (hst : w.sess.state = .established)
    (hrk : w.sess.rekey = none) (hconn : w.env.conn = some conn) (ctrl : ControlPacket) :
    Starts (freshTrack ctrl.keyId conn w.env) w.sess (handleSoftReset S ctrl w).2.sess := by
  unfold handleSoftReset
  rw [get_bind, if_neg (by simp [hrk]), if_neg (by simp [hst]), hconn]
  refine SentFrom.starts ?_ (sendAndTrack_from rfl _)
  exact ⟨rfl, rfl, rfl⟩

lemma rekeyTick_starts {conn : Conn} (hst : w.sess.state = .established)
    (hrk : w.sess.rekey = none) (hdue : RekeyDue S w) (hconn : w.env.conn = some conn) :
    Starts (freshTrack ((w.sess.activeKeyId + 1) &&& 0x07) conn w.env) w.sess
      (rekeyTick S w).2.sess := by
  unfold rekeyTick
  rw [get_bind, if_neg (by simp [hst, hrk]), if_neg (Nat.not_lt.mpr hdue), hconn]
  refine SentFrom.starts ?_ (sendAndTrack_from rfl _)
  exact ⟨rfl, rfl, rfl⟩

lemma table_hear {v : World Conn} {ctrl : ControlPacket} (h : v.abs = w.abs.hear ctrl) :
    v.sess.toSlotTable = w.sess.toSlotTable ∧ v.sess.state = w.sess.state := by
  have hcore : (w.abs.hear ctrl).table = w.abs.table ∧ (w.abs.hear ctrl).state = w.abs.state := by
    unfold Abs.hear
    split <;> exact ⟨rfl, rfl⟩
  exact ⟨(congrArg Abs.table h).trans hcore.1, (congrArg Abs.state h).trans hcore.2⟩

lemma canRekey_iff (hst : w.sess.state = .established) :
    CanRekey S addr w ↔ w.sess.rekey = none := by
  constructor
  · intro h
    by_contra hsome
    obtain ⟨rk, hrk⟩ := Option.ne_none_iff_exists'.mp hsome
    -- a `SOFT_RESET` under another key id is ignored
    let ctrl : ControlPacket := ⟨.controlSoftResetV1, rk.keyId + 1, 0, [], none, none, []⟩
    let env : Env Conn := { w.env with conn := some rk.tls.conn }
    have hfresh := (h env rk.tls.conn rfl).1 ctrl none rfl rfl
    obtain ⟨v, hv, -, -, hvrk, -⟩ := handleLocked_dispatch S addr ctrl
      (show accepts { w with env } none = true from rfl)
    rw [hv, dispatch_softReset rfl, handleSoftReset, get_bind, if_pos (by rw [hvrk, hrk]; rfl)]
      at hfresh
    have hid : rk.keyId = rk.keyId + 1 :=
      congrArg RekeyTrack.keyId (Option.some.inj ((hrk.symm.trans hvrk.symm).trans hfresh))
    simp at hid
  · intro hrk env conn hconn
    refine ⟨fun ctrl replayPid hop hacc => ?_, fun hdue => ?_⟩
    · obtain ⟨v, hv, ha, henv, hvrk, -⟩ :=
        handleLocked_dispatch (w := { w with env }) S addr ctrl hacc
      have hstv : v.sess.state = .established := (table_hear ha).2.trans hst
      rw [hv, dispatch_softReset hop]
      rw [(handleSoftReset_starts hstv (hvrk.trans hrk) ((congrArg Env.conn henv).trans hconn)
        ctrl).rekey, henv]
    · exact (rekeyTick_starts (w := { w with env }) hst hrk hdue hconn).rekey

end Start

/-! ### A rekey in progress -/

/-- A rekey is in progress in an established session whose active slot is `active`. -/
structure Standing (active : Option KeySlot) (w : World Conn) : Prop where
  rekey : w.sess.rekey.isSome
  active : w.sess.activeSlot = active
  state : w.sess.state = .established

def Stays {α : Type} (active : Option KeySlot) (m : M Conn α) : Prop :=
  Ends (Standing active) m (fun _ => Standing active) (Standing active)

section Standing

variable {S : VpnServer Conn} {active : Option KeySlot}

lemma stays_sendChunk (ctx : Ctx) (keyId : UInt8) (c : Bytes) :
    Stays active (sendChunk S ctx keyId c) := by
  refine ends_of_after fun w hw => ?_
  obtain ⟨r, v, h, ⟨_, _, hsess⟩, -⟩ := sendChunk_apply (S := S) ctx keyId c w
  rw [h]
  constructor <;> rw [hsess]
  · exact hw.rekey
  · exact hw.active
  · exact hw.state

lemma stays_flushRekeyOutgoing : Stays active (flushRekeyOutgoing S) := by
  unfold Stays
  rw [flushRekeyOutgoing_eq]
  refine ends_get_bind fun w hw => ?_
  rcases hrk : w.sess.rekey with _ | rk
  · exact ends_pure fun _ h => h ▸ hw
  dsimp only
  refine ends_bind (M := fun _ => Standing active) (ends_put ⟨rfl, hw.active, hw.state⟩) fun _ => ?_
  split
  · exact ends_pure fun _ h => h
  · exact ends_forM fun c _ => stays_sendChunk _ _ c

lemma stays_driveRekeyControlPlane : Stays active (driveRekeyControlPlane S) := by
  unfold Stays
  rw [driveRekeyControlPlane_eq]
  refine ends_get_bind fun w hw => ?_
  rcases hrk : w.sess.rekey with _ | rk
  · exact ends_pure fun _ h => h ▸ hw
  dsimp only
  split
  · exact ends_pure fun _ h => h ▸ hw
  refine ends_bind (M := fun _ => Standing active)
    (ends_ofExcept (fun _ _ _ h => h ▸ hw) fun _ h => h ▸ hw) fun pop => ?_
  rcases pop with ⟨km, k⟩ | _
  case needMore => exact ends_pure fun _ h => h
  dsimp only
  refine ends_bind (M := fun _ => Standing active) (ends_modify fun u hu => ?_) fun _ => ?_
  · -- the new slot goes to the position that is not active
    exact ⟨hu.rekey, (SlotTable.activeSlot_installSlot _ _).trans hu.active, hu.state⟩
  refine ends_bind (M := fun _ => Standing active)
    (ends_modify fun u hu => ⟨rfl, hu.active, hu.state⟩) fun _ => ?_
  split
  · exact ends_modify fun u hu => ⟨rfl, hu.active, hu.state⟩
  · exact ends_throw fun _ h => h

lemma ends_finishRekey {P : World Conn → Prop} :
    Ends P finishRekey (fun _ _ => True) fun _ => False := by
  rw [finishRekey_eq]
  refine ends_get_bind fun w _ => ?_
  rcases w.sess.rekey with _ | rk
  · exact ends_pure fun _ _ => trivial
  · dsimp only
    split
    · exact ends_put trivial
    · exact ends_pure fun _ _ => trivial

lemma ends_handleRekeyControl (ctrl : ControlPacket) :
    Ends (Standing active) (handleRekeyControl S ctrl) (fun _ _ => True) (Standing active) := by
  have hrest : Ends (Standing active)
      (do driveRekeyControlPlane S; flushRekeyOutgoing S; finishRekey) (fun _ _ => True)
      (Standing active) := by
    refine ends_bind stays_driveRekeyControlPlane fun _ => ?_
    refine ends_bind stays_flushRekeyOutgoing fun _ => ?_
    exact ends_finishRekey.conseq (fun _ h => h) (fun _ _ h => h) fun _ h => h.elim
  unfold handleRekeyControl
  refine ends_get_bind fun w hw => ?_
  rcases hrk : w.sess.rekey with _ | rk
  · exact ends_pure fun _ _ => trivial
  dsimp only
  refine ends_bind (M := fun _ => Standing active) (ends_put ⟨rfl, hw.active, hw.state⟩) fun _ => ?_
  refine ends_bind (M := fun _ => Standing active) (ends_context _ _) fun _ => ?_
  split
  · exact ends_bind (M := fun _ => Standing active)
      (ends_modify fun u hu => ⟨rfl, hu.active, hu.state⟩) fun _ => hrest
  · exact hrest

end Standing

/-! ### Failed attempts -/

section Failed

variable {S : VpnServer Conn} {addr : SocketAddr} {w v : World Conn}

lemma not_canRekey_of_starts {track : RekeyTrack Conn} (hst : w.sess.state = .established)
    (h : Starts track w.sess v.sess) : ¬ CanRekey S addr v := by
  rw [canRekey_iff (h.state.trans hst), h.rekey]
  exact fun hnone => by cases hnone

/-- **After a failed rekey** the active slot is the one it was before; and the session can rekey
exactly if the attempt failed in creating its TLS connection. -/
theorem failed_rekey_recovers_iff (S : VpnServer Conn) (addr : SocketAddr) (w : World Conn)
    (hst : w.sess.state = .established) {r : Except Err Unit × World Conn}
    (hatt : RekeyAttempt S addr w r) (hfail : (∃ e, r.1 = .error e) ∨ NoConnection w) :
    r.2.sess.activeSlot = w.sess.activeSlot ∧ (CanRekey S addr r.2 ↔ NoConnection w) := by
  cases hatt with
  | softReset ctrl replayPid hop hacc hrk =>
    obtain ⟨v, hv, ha, henv, hvrk, -⟩ := handleLocked_dispatch S addr ctrl hacc
    obtain ⟨htab, hstv⟩ := table_hear ha
    rw [hv, dispatch_softReset hop]
    rcases hconn : w.env.conn with _ | conn
    -- without a connection nothing has been stored, so the next attempt is as good as this one
    · have hreset : handleSoftReset S ctrl v = (.error (.bail "new ServerConnection"), v) := by
        rw [handleSoftReset, get_bind, if_neg (by simp [hvrk, hrk]), if_neg (by simp [hstv, hst]),
          (congrArg Env.conn henv).trans hconn]
        rfl
      rw [hreset]
      refine ⟨by rw [htab], ?_⟩
      rw [canRekey_iff (hstv.trans hst), hvrk]
      exact (and_iff_left hconn).symm
    · have hstart := handleSoftReset_starts (S := S) (hstv.trans hst) (hvrk.trans hrk)
        ((congrArg Env.conn henv).trans hconn) ctrl
      refine ⟨by rw [hstart.table, htab], ?_⟩
      -- the exchange is stored before the send that fails, and stays there
      refine iff_of_false (not_canRekey_of_starts (hstv.trans hst) hstart) fun hno => ?_
      cases hconn.symm.trans hno.2
  | control ctrl replayPid hop hacc hrk =>
    obtain ⟨rk, hsome, -⟩ := isRekey_iff.mp hrk
    have hno : ¬ NoConnection w := fun hno => by cases hsome.symm.trans hno.1
    obtain ⟨e, he⟩ := hfail.resolve_right hno
    obtain ⟨v, hv, ha, -, hvrk, -⟩ := handleLocked_dispatch S addr ctrl hacc
    obtain ⟨htab, hstv⟩ := table_hear ha
    rw [hv, dispatch_rekey hop ((isRekey_congr hvrk ctrl).trans hrk)] at he ⊢
    have hends := ends_handleRekeyControl (S := S) ctrl v
      ⟨by rw [hvrk, hsome]; rfl, rfl, hstv.trans hst⟩
    rcases hrun : handleRekeyControl S ctrl v with ⟨_ | _, u⟩ <;> rw [hrun] at he hends
    swap
    · cases he
    refine ⟨hends.active.trans (by rw [htab]), iff_of_false ?_ hno⟩
    rw [canRekey_iff hends.state]
    exact fun hnone => by cases hnone ▸ hends.rekey
  | tick hdue hrk =>
    rcases hconn : w.env.conn with _ | conn
    · have htick : rekeyTick S w = (.ok (), w) := by
        rw [rekeyTick, get_bind, if_neg (by simp [hst, hrk]), if_neg (Nat.not_lt.mpr hdue), hconn]
        rfl
      rw [htick]
      refine ⟨rfl, ?_⟩
      rw [canRekey_iff hst]
      exact (and_iff_left hconn).symm
    · have hstart := rekeyTick_starts (S := S) hst hrk hdue hconn
      refine ⟨by rw [hstart.table], ?_⟩
      refine iff_of_false (not_canRekey_of_starts hst hstart) fun hno => ?_
      cases hconn.symm.trans hno.2

end Failed

lemma noConnection_facts :
    let v := run (step plainServer plainAddr) (started plainServer plainOpening) [establishing]
    v.sess.state = .established ∧ v.sess.rekey.isNone = true ∧
      (handleLocked plainServer plainAddr (clientPacket .controlSoftResetV1 1 2 []) none
        { v with env := { plainEnv 2 with conn := none } }).1.isOk = false := by
  decide +kernel

theorem failed_rekey_recovers_noConnection :
    let w := { run (step plainServer plainAddr) (started plainServer plainOpening)
        [establishing] with env := { plainEnv 2 with conn := none } }
    let r := handleLocked plainServer plainAddr (clientPacket .controlSoftResetV1 1 2 []) none w
    r.1.isOk = false ∧ r.2.sess.activeSlot = w.sess.activeSlot ∧
      CanRekey plainServer plainAddr r.2 := by
  have hfacts := noConnection_facts
  revert hfacts
  generalize run (step plainServer plainAddr) (started plainServer plainOpening) [establishing] = v
  rintro ⟨hst, hrk, hfail⟩ w r
  have hno : NoConnection w := ⟨Option.isNone_iff_eq_none.mp hrk, rfl⟩
  obtain ⟨hactive, hcan⟩ := failed_rekey_recovers_iff plainServer plainAddr w hst
    (r := r) (.softReset _ none rfl rfl hno.1) (.inr hno)
  exact ⟨hfail, hactive, hcan.mpr hno⟩

/-- A rekey of the client whose reply cannot be sent, and one whose key exchange is malformed. In
both cases the client's next `SOFT_RESET`, and a tick long after, find the old track and are
ignored. -/
theorem failed_rekey_blocks :
    let w := run (step plainServer plainAddr) (started plainServer plainOpening) [establishing]
    let reset := clientPacket .controlSoftResetV1 1 2 []
    let unsent : List (Event Plain) := [.control { plainEnv 2 with sends := [false] } reset none]
    let malformed : List (Event Plain) := [.control (plainEnv 2) reset none,
      .control (plainEnv 2) (clientPacket .controlV1 1 3 (List.replicate 130 1)) none]
    let later : List (Event Plain) :=
      [.control (plainEnv 3) (clientPacket .controlSoftResetV1 2 4 []) none,
       .rekey { plainEnv 4 with now := 100000000 }]
    w.sess.state = .established ∧ w.sess.rekey.isNone = true ∧
      ∀ failing ∈ [unsent, malformed],
        (run (step plainServer plainAddr) w (failing ++ later)).sess.state = .established ∧
        (run (step plainServer plainAddr) w (failing ++ later)).sess.rekey.map
          (fun rk => (rk.keyId, rk.serverRandom1)) = some (1, List.replicate 32 2) := by
  decide +kernel

end Javs
