import Javs.Lib.Stream
import Javs.Lifecycle

/-!
The control plane and the plaintext that drives it.

Behind the handshake the client's messages come out of the TLS connection as a stream of bytes,
cut wherever records and packets end. `drive_control_plane` runs after every feed and takes the
messages that are complete. It is a consumer of that stream: which messages it takes, and what
it does upon them, is a matter of the bytes alone.
-/

namespace Javs

open Lib Lib.Proc M

variable {Conn : Type}

/-! ### What is queued on a connection -/

/-- A TLS library that keeps beside each connection the plaintexts queued on it. -/
def Rustls.recording (T : Rustls Conn) : Rustls (Conn × List Bytes) where
  readTls c data := (((T.readTls c.1 data).1, c.2), (T.readTls c.1 data).2)
  processNewPackets c := (((T.processNewPackets c.1).1, c.2), (T.processNewPackets c.1).2)
  readPlaintext c := (((T.readPlaintext c.1).1, c.2), (T.readPlaintext c.1).2)
  writeTls c := (((T.writeTls c.1).1, c.2), (T.writeTls c.1).2)
  isHandshaking c := T.isHandshaking c.1
  writePlaintext c data :=
    let (conn, ok) := T.writePlaintext c.1 data
    ((conn, if ok then c.2 ++ [data] else c.2), ok)
  peerCommonName c := T.peerCommonName c.1

def VpnServer.recording (S : VpnServer Conn) : VpnServer (Conn × List Bytes) where
  cfg := S.cfg
  poolEnd := S.poolEnd
  poolEndV6 := S.poolEndV6
  tlsCrypt := S.tlsCrypt
  tlsAuth := S.tlsAuth
  prims := S.prims
  rustls := S.rustls.recording

def World.queued (w : World (Conn × List Bytes)) : List Bytes := w.sess.tls.conn.2

/-- The worlds agree in everything but the inside of the main TLS connection. -/
structure SameButTls (w₁ w₂ : World (Conn × List Bytes)) : Prop where
  same : w₂ = w₁.setTls w₂.sess.tls
  plaintextIn : w₂.sess.tls.plaintextIn = w₁.sess.tls.plaintextIn
  queued : w₂.queued = w₁.queued

/-! ### Feeds -/

/-- A feed of the main connection, followed by `drive_control_plane`. -/
def feedAndDrive (S : VpnServer Conn) (addr : SocketAddr) (data : Bytes) : M Conn Unit := do
  let w ← get
  let (tls, fed) := w.sess.tls.feed S.rustls data
  put (w.setTls tls)
  context "tls feed" fed
  driveControlPlane S addr

def feedAll (S : VpnServer Conn) (addr : SocketAddr) (w : World Conn) (ds : List Bytes) :
    World Conn :=
  run (fun w data => (feedAndDrive S addr data w).2) w ds

/-- The plaintext that comes out of the connection over the feeds, if none of them fails. -/
def delivered (S : VpnServer Conn) (addr : SocketAddr) : World Conn → List Bytes → Option Bytes
  | _, [] => some []
  | w, data :: ds =>
    match w.sess.tls.feed S.rustls data with
    | (_, .error _) => none
    | (tls, .ok ()) => (delivered S addr (feedAndDrive S addr data w).2 ds).map
        (tls.plaintextIn.drop w.sess.tls.plaintextIn.length ++ ·)

/-- A `PUSH_REQUEST` finds its addresses: the static one is free or the pool has one left, and
so has the IPv6 pool if there is one. -/
def CanAssign (S : VpnServer Conn) (w : World Conn) : Prop :=
  (match (S.cfg.clientConfig w.sess.clientCn).bind ClientConfig.assignIp with
    | some (.v4 ip) => w.tab.routes ip = none
    | some (.v6 _) => False
    | none => w.tab.nextPoolIp ≤ S.poolEnd) ∧
  match w.tab.nextPoolIpV6, S.poolEndV6 with
  | none, _ => True
  | some _, none => False
  | some ip, some poolEnd => ip ≤ poolEnd

instance (S : VpnServer Conn) (w : World Conn) : Decidable (CanAssign S w) := by
  unfold CanAssign
  refine @instDecidableAnd _ _ ?_ ?_
  · split <;> infer_instance
  · split <;> infer_instance

/-! ### Programs that do not look into the connection -/

section Blind

variable {S : VpnServer Conn} {α β : Type}

/-- What the program does is the same whatever the connection is like inside, and whatever
plaintext waits behind it. -/
def Blind (m : M (Conn × List Bytes) α) : Prop :=
  ∀ (w : World (Conn × List Bytes)) (t : TlsSession (Conn × List Bytes)), t.conn.2 = w.queued →
    ∃ c, c.2 = (m w).2.queued ∧ m (w.setTls t) = ((m w).1, (m w).2.setTls ⟨c, t.plaintextIn⟩)

/-- The program takes `n` bytes of plaintext, and is blind to the rest. -/
def Takes (n : ℕ) (m : M (Conn × List Bytes) α) : Prop :=
  ∀ (w : World (Conn × List Bytes)) (t : TlsSession (Conn × List Bytes)), t.conn.2 = w.queued →
    ∃ c, c.2 = (m w).2.queued ∧
      m (w.setTls t) = ((m w).1, (m w).2.setTls ⟨c, t.plaintextIn.drop n⟩)

lemma takes_zero {m : M (Conn × List Bytes) α} : Takes 0 m ↔ Blind m := Iff.rfl

lemma takes_bind {n : ℕ} {m : M (Conn × List Bytes) α} {k : α → M (Conn × List Bytes) β}
    (hm : Takes n m) (hk : ∀ a, Blind (k a)) : Takes n (m >>= k) := by
  intro w t ht
  obtain ⟨c, hc, hmt⟩ := hm w t ht
  rcases hmw : m w with ⟨e | a, w'⟩ <;> rw [hmw] at hc hmt
  · rw [bind_error hmw, bind_error hmt]
    exact ⟨c, hc, rfl⟩
  · rw [bind_ok hmw, bind_ok hmt]
    exact hk a w' ⟨c, t.plaintextIn.drop n⟩ hc

lemma blind_pure (a : α) : Blind (pure a : M (Conn × List Bytes) α) :=
  fun _ t ht => ⟨t.conn, ht, rfl⟩

lemma blind_throw (e : Err) : Blind (throw e : M (Conn × List Bytes) α) :=
  fun _ t ht => ⟨t.conn, ht, rfl⟩

lemma blind_bind {m : M (Conn × List Bytes) α} {k : α → M (Conn × List Bytes) β} (hm : Blind m)
    (hk : ∀ a, Blind (k a)) : Blind (m >>= k) :=
  takes_zero.mp (takes_bind (takes_zero.mpr hm) hk)

lemma blind_modify {f : World (Conn × List Bytes) → World (Conn × List Bytes)}
    (hf : ∀ w t, f (w.setTls t) = (f w).setTls t) (hq : ∀ w, (f w).queued = w.queued) :
    Blind (modify f : M (Conn × List Bytes) PUnit) := by
  intro w t ht
  refine ⟨t.conn, ht.trans (hq w).symm, ?_⟩
  rw [modify_apply, modify_apply, hf]

lemma blind_get_bind {k : World (Conn × List Bytes) → M (Conn × List Bytes) β}
    (h : ∀ w t, k (w.setTls t) = k w) (hk : ∀ w, Blind (k w)) :
    Blind ((get : M (Conn × List Bytes) (World (Conn × List Bytes))) >>= k) := by
  intro w t ht
  rw [get_bind, get_bind, h]
  exact hk w w t ht

lemma recording_queues (hS : S.Queues) : S.recording.Queues := fun c data => hS c.1 data

lemma sendPlaintext_recording (hS : S.Queues) (data : Bytes) (w : World (Conn × List Bytes)) :
    sendPlaintext S.recording data w = (.ok (), w.setTls
      ⟨((S.rustls.writePlaintext w.sess.tls.conn.1 data).1, w.queued ++ [data]),
        w.sess.tls.plaintextIn⟩) := by
  have htls : w.sess.tls.sendPlaintext S.recording.rustls data =
      (⟨((S.rustls.writePlaintext w.sess.tls.conn.1 data).1, w.queued ++ [data]),
        w.sess.tls.plaintextIn⟩, true) := by
    have hok := hS w.sess.tls.conn.1 data
    simp [TlsSession.sendPlaintext, VpnServer.recording, Rustls.recording, hok, World.queued]
  unfold sendPlaintext
  rw [get_bind, htls]
  rfl

lemma blind_sendPlaintext (hS : S.Queues) (data : Bytes) :
    Blind (sendPlaintext S.recording data) := by
  intro w t ht
  rw [sendPlaintext_recording hS, sendPlaintext_recording hS]
  refine ⟨((S.rustls.writePlaintext t.conn.1 data).1, t.conn.2 ++ [data]), ?_, rfl⟩
  rw [ht]
  rfl

lemma blind_installPrfSlot (keyId : UInt8) : Blind (installPrfSlot S.recording keyId) := by
  intro w t ht
  refine ⟨t.conn, ?_, ?_⟩
  all_goals
    unfold installPrfSlot
    simp only [get_bind]
    have hslot : (w.setTls t).sess.prfSlot S.recording.prims keyId =
      w.sess.prfSlot S.recording.prims keyId := rfl
    rcases hs : w.sess.prfSlot S.recording.prims keyId with e | slot
  · exact ht
  · exact ht
  · rw [hslot, hs]
    rfl
  · rw [hslot, hs]
    rfl

lemma blind_handleKeyMethod2 (hS : S.Queues) (km : ClientKeyMethod2) :
    Blind (handleKeyMethod2 S.recording km) := by
  refine blind_bind (blind_modify (fun _ _ => rfl) fun _ => rfl) fun _ => ?_
  refine blind_bind (blind_installPrfSlot 0) fun _ => ?_
  refine blind_get_bind (fun _ _ => rfl) fun w => ?_
  exact blind_bind (blind_sendPlaintext hS _) fun _ => blind_modify (fun _ _ => rfl) fun _ => rfl

lemma blind_allocateIp : Blind (allocateIp S.recording) := by
  intro w t ht
  refine ⟨t.conn, ?_, ?_⟩
  all_goals
    unfold allocateIp
    simp only [get_bind]
    by_cases hip : w.tab.nextPoolIp > S.recording.poolEnd
  · rw [if_pos hip]
    exact ht
  · rw [if_neg hip]
    exact ht
  · rw [if_pos hip, if_pos (show (w.setTls t).tab.nextPoolIp > _ from hip)]
    rfl
  · rw [if_neg hip, if_neg (show ¬ (w.setTls t).tab.nextPoolIp > _ from hip)]
    rfl

lemma blind_allocateIpV6 : Blind (allocateIpV6 S.recording) := by
  intro w t ht
  refine ⟨t.conn, ?_, ?_⟩
  all_goals
    unfold allocateIpV6
    simp only [get_bind, World.setTls]
    rcases w.tab.nextPoolIpV6 with _ | ip <;> rcases S.recording.poolEndV6 with _ | poolEnd <;>
      dsimp only
    iterate 3 first | exact ht | rfl
    split <;> first | exact ht | rfl

lemma blind_chooseIp (cc : Option ClientConfig) : Blind (chooseIp S.recording cc) := by
  refine blind_get_bind (fun _ _ => rfl) fun w => ?_
  rcases cc.bind ClientConfig.assignIp with _ | _ | _
  · exact blind_allocateIp
  · dsimp only
    split
    · exact blind_throw _
    · exact blind_pure _
  · exact blind_throw _

lemma blind_assignIp (addr : SocketAddr) (cc : Option ClientConfig) :
    Blind (assignIp S.recording addr cc) :=
  blind_bind (blind_chooseIp cc) fun _ =>
    blind_bind (blind_modify (fun _ _ => rfl) fun _ => rfl) fun _ => blind_pure _

lemma blind_assignIpV6 (addr : SocketAddr) : Blind (assignIpV6 S.recording addr) := by
  refine blind_bind blind_allocateIpV6 fun ip => ?_
  cases ip with
  | none => exact blind_pure _
  | some ip =>
    exact blind_bind (blind_modify (fun _ _ => rfl) fun _ => rfl) fun _ => blind_pure _

lemma blind_handlePushRequest (hS : S.Queues) (addr : SocketAddr) :
    Blind (handlePushRequest S.recording addr) := by
  refine blind_get_bind (fun _ _ => rfl) fun w => ?_
  refine blind_bind (blind_assignIp addr _) fun ip => ?_
  refine blind_bind (blind_assignIpV6 addr) fun ip6 => ?_
  exact blind_bind (blind_sendPlaintext hS _) fun _ => blind_modify (fun _ _ => rfl) fun _ => rfl

end Blind

/-! ### Rounds -/

section Rounds

variable (S : VpnServer Conn) (addr : SocketAddr)

def takeKeys (km : ClientKeyMethod2) (n : ℕ) : M Conn Bool := do
  modifySess fun s => { s with tls := s.tls.drain n }
  handleKeyMethod2 S km
  pure true

def takeRequest (msg : Text) (n : ℕ) : M Conn Bool := do
  modifySess fun s => { s with tls := s.tls.drain n }
  if msg = "PUSH_REQUEST".toList then handlePushRequest S addr
  pure true

def takeMessage (msg : Text) (n : ℕ) : M Conn Bool := do
  modifySess fun s => { s with tls := s.tls.drain n }
  if msg = "EXIT".toList ∨ "CC_EXIT".toList <+: msg then
    modifySess fun s => { s with state := .closed }
    pure false
  else pure true

/-- What a round of `drive_control_plane` does in a state upon the plaintext `b`, and how many
bytes it takes; `none` if it takes none. -/
def roundAct (st : State) (b : Bytes) : Option (M Conn Bool × ℕ) :=
  match st with
  | .keyExchange =>
    match ClientKeyMethod2.tryParse b with
    | .ok (.ready km n) => some (takeKeys S km n, n)
    | _ => none
  | .pushPending =>
    match tryPopAscii b with
    | .ready msg n => some (takeRequest S addr msg n, n)
    | .needMore => none
  | .established =>
    match tryPopAscii b with
    | .ready msg n => some (takeMessage msg n, n)
    | .needMore => none
  | _ => none

inductive TakingRound (b : Bytes) : State → M Conn Bool → ℕ → Prop
  | keys (km n) (h : ClientKeyMethod2.tryParse b = .ok (.ready km n)) :
      TakingRound b .keyExchange (takeKeys S km n) n
  | request (msg n) (h : tryPopAscii b = .ready msg n) :
      TakingRound b .pushPending (takeRequest S addr msg n) n
  | message (msg n) (h : tryPopAscii b = .ready msg n) :
      TakingRound b .established (takeMessage msg n) n

variable {S addr} {st : State} {b : Bytes} {act : M Conn Bool} {n : ℕ}

lemma roundAct_eq_some : roundAct S addr st b = some (act, n) ↔ TakingRound S addr b st act n := by
  constructor
  · intro h
    unfold roundAct at h
    rcases st <;> dsimp only at h
    -- only three states take anything, and each one kind of message
    case keyExchange =>
      rcases hp : ClientKeyMethod2.tryParse b with e | ⟨km, k⟩ | _ <;> rw [hp] at h
      · cases h
      · cases h
        exact .keys km _ hp
      · cases h
    case pushPending =>
      rcases hp : tryPopAscii b with ⟨msg, k⟩ | _ <;> rw [hp] at h
      · cases h
        exact .request msg _ hp
      · cases h
    case established =>
      rcases hp : tryPopAscii b with ⟨msg, k⟩ | _ <;> rw [hp] at h
      · cases h
        exact .message msg _ hp
      · cases h
    all_goals cases h
  · intro h
    cases h with
    | keys km n h => simp only [roundAct, h]
    | request msg n h => simp only [roundAct, h]
    | message msg n h => simp only [roundAct, h]

lemma TakingRound.bounds (h : TakingRound S addr b st act n) : 0 < n ∧ n ≤ b.length := by
  cases h with
  | keys km n h => exact ClientKeyMethod2.tryParse_ready h
  | request msg n h => exact tryPopAscii_ready h
  | message msg n h => exact tryPopAscii_ready h

lemma TakingRound.append (h : TakingRound S addr b st act n) (more : Bytes) :
    TakingRound S addr (b ++ more) st act n := by
  cases h with
  | keys km n h =>
    refine .keys km n ?_
    rw [ClientKeyMethod2.tryParse_append (by rw [h]; nofun), h]
  | request msg n h => exact .request msg n (tryPopAscii_append h more)
  | message msg n h => exact .message msg n (tryPopAscii_append h more)

lemma driveRound_of_some {w : World Conn}
    (h : roundAct S addr w.sess.state w.sess.tls.plaintextIn = some (act, n)) :
    driveRound S addr w = act w := by
  rw [roundAct_eq_some] at h
  have hdrain := drainPlaintext_of_le h.bounds.2
  unfold driveRound
  rw [get_bind]
  generalize w.sess.state = st at h
  generalize hb : w.sess.tls.plaintextIn = b at h
  cases h with
  | keys km n h =>
    rw [h]
    exact bind_ok hdrain
  | request msg n h =>
    rw [h]
    exact bind_ok hdrain
  | message msg n h =>
    rw [h]
    exact bind_ok hdrain

lemma driveRound_of_none {w : World Conn}
    (h : roundAct S addr w.sess.state w.sess.tls.plaintextIn = none) :
    (driveRound S addr w).2 = w ∧ (driveRound S addr w).1 ≠ .ok true := by
  unfold driveRound
  rw [get_bind]
  rcases hst : w.sess.state <;> rw [hst] at h <;> dsimp only
  case keyExchange =>
    rcases hp : ClientKeyMethod2.tryParse w.sess.tls.plaintextIn with e | ⟨km, k⟩ | _
    · exact ⟨rfl, nofun⟩
    · rw [roundAct_eq_some.mpr (.keys km k hp)] at h
      cases h
    · exact ⟨rfl, nofun⟩
  case pushPending =>
    rcases hp : tryPopAscii w.sess.tls.plaintextIn with ⟨msg, k⟩ | _
    · rw [roundAct_eq_some.mpr (.request msg k hp)] at h
      cases h
    · exact ⟨rfl, nofun⟩
  case established =>
    rcases hp : tryPopAscii w.sess.tls.plaintextIn with ⟨msg, k⟩ | _
    · rw [roundAct_eq_some.mpr (.message msg k hp)] at h
      cases h
    · exact ⟨rfl, nofun⟩
  all_goals exact ⟨rfl, nofun⟩

end Rounds

/-! ### The consumer -/

section Control

variable {S : VpnServer Conn} {addr : SocketAddr} {st : State} {b : Bytes} {n : ℕ}

lemma TakingRound.takes (hS : S.Queues) {act : M (Conn × List Bytes) Bool}
    (h : TakingRound S.recording addr b st act n) : Takes n act := by
  cases h with
  | keys km n =>
    refine takes_bind (fun w t ht => ⟨t.conn, ht, rfl⟩) fun _ => ?_
    exact blind_bind (blind_handleKeyMethod2 hS km) fun _ => blind_pure _
  | request msg n =>
    refine takes_bind (fun w t ht => ⟨t.conn, ht, rfl⟩) fun _ => ?_
    dsimp only
    split
    · exact blind_bind (blind_handlePushRequest hS addr) fun _ => blind_pure _
    · exact blind_pure _
  | message msg n =>
    refine takes_bind (fun w t ht => ⟨t.conn, ht, rfl⟩) fun _ => ?_
    split
    · exact blind_bind (blind_modify (fun _ _ => rfl) fun _ => rfl) fun _ => blind_pure _
    · exact blind_pure _

/-- A world without its TLS connection and its plaintext: of the connection only what was
queued on it is left. -/
def World.bare (c₀ : Conn) (w : World (Conn × List Bytes)) : World (Conn × List Bytes) :=
  w.setTls ⟨(c₀, w.queued), []⟩

/-- The control plane as a consumer of plaintext. -/
def controlPlane (S : VpnServer Conn) (addr : SocketAddr) (c₀ : Conn) :
    Consumer (World (Conn × List Bytes)) UInt8 := fun u b =>
  (roundAct S.recording addr u.sess.state b).map fun x => ((x.1 u).2.bare c₀, x.2)

lemma controlPlane_steady (S : VpnServer Conn) (addr : SocketAddr) (c₀ : Conn) :
    (controlPlane S addr c₀).Steady := by
  have hround {u : World (Conn × List Bytes)} {b : Bytes} {v : World (Conn × List Bytes)} {n : ℕ}
      (h : controlPlane S addr c₀ u b = some (v, n)) :
      ∃ act, TakingRound S.recording addr b u.sess.state act n ∧ v = (act u).2.bare c₀ := by
    obtain ⟨⟨act, k⟩, hact, heq⟩ := Option.map_eq_some_iff.mp h
    obtain ⟨rfl, rfl⟩ := Prod.mk.inj heq
    exact ⟨act, roundAct_eq_some.mp hact, rfl⟩
  constructor
  · intro u b v n h
    obtain ⟨act, hact, -⟩ := hround h
    exact hact.bounds.1
  · intro u b v n h
    obtain ⟨act, hact, -⟩ := hround h
    exact hact.bounds.2
  · intro u b v n h more
    obtain ⟨act, hact, rfl⟩ := hround h
    unfold controlPlane
    rw [roundAct_eq_some.mpr (hact.append more)]
    rfl

/-! ### The consumer and the loop -/

lemma ends_chooseIp {w : World Conn} (hw : CanAssign S w) :
    Ends (fun u => u = w) (chooseIp S (S.cfg.clientConfig w.sess.clientCn))
      (fun _ u => u.tab.nextPoolIpV6 = w.tab.nextPoolIpV6) fun _ => False := by
  have hip := hw.1
  unfold chooseIp
  refine ends_get_bind fun u hu => ?_
  subst hu
  rcases hcc : (S.cfg.clientConfig u.sess.clientCn).bind ClientConfig.assignIp with _ | ip | ip <;>
    rw [hcc] at hip <;> dsimp only at hip ⊢
  · unfold allocateIp
    refine ends_get_bind fun v hv => ?_
    rw [if_neg (by rw [hv]; exact UInt32.not_lt.mpr hip)]
    refine ends_bind (M := fun _ x => x.tab.nextPoolIpV6 = u.tab.nextPoolIpV6) (ends_put ?_)
      fun _ => ends_pure fun _ h => h
    rw [hv]
  · rw [if_neg (by simp [hip])]
    exact ends_pure fun _ h => h ▸ rfl

lemma ends_allocateIpV6 {w : World Conn} (hw : CanAssign S w) :
    Ends (fun u => u.tab.nextPoolIpV6 = w.tab.nextPoolIpV6) (allocateIpV6 S) (fun _ _ => True)
      fun _ => False := by
  have hip := hw.2
  unfold allocateIpV6
  refine ends_get_bind fun u hu => ?_
  rw [hu]
  revert hip
  rcases w.tab.nextPoolIpV6 with _ | ip <;> rcases S.poolEndV6 with _ | poolEnd <;>
    dsimp only <;> intro hip
  · exact ends_pure fun _ _ => trivial
  · exact ends_pure fun _ _ => trivial
  · exact hip.elim
  · rw [if_neg (BitVec.not_lt.mpr hip)]
    exact ends_bind (M := fun _ _ => True) (ends_put trivial) fun _ => ends_pure fun _ _ => trivial

lemma ends_handlePushRequest (hS : S.Queues) :
    Ends (CanAssign S) (handlePushRequest S addr) (fun _ w => w.sess.state = .established)
      fun _ => False := by
  unfold handlePushRequest
  refine ends_get_bind fun w hw => ?_
  refine ends_bind (M := fun _ u => u.tab.nextPoolIpV6 = w.tab.nextPoolIpV6) ?_ fun ip => ?_
  · exact ends_bind (ends_chooseIp hw) fun _ =>
      ends_bind (M := fun _ u => u.tab.nextPoolIpV6 = w.tab.nextPoolIpV6)
        (ends_modify fun _ h => h) fun _ => ends_pure fun _ h => h
  refine ends_bind (M := fun _ _ => True) ?_ fun ip6 => ?_
  · refine ends_bind (ends_allocateIpV6 hw) fun ip6 => ?_
    cases ip6 with
    | none => exact ends_pure fun _ _ => trivial
    | some ip6 =>
      exact ends_bind (M := fun _ _ => True) (ends_modify fun _ _ => trivial)
        fun _ => ends_pure fun _ _ => trivial
  · refine ends_bind (M := fun _ _ => True) ?_ fun _ => ends_modify fun _ _ => rfl
    exact ends_self fun u _ => (ends_sendPlaintext hS _ u).conseq (fun _ h => h)
      (fun _ _ _ => trivial) fun _ h => h

/-- If the session has not got its addresses yet, it can. -/
def Smooth (S : VpnServer Conn) (w : World Conn) : Prop :=
  w.sess.state = .keyExchange ∨ w.sess.state = .pushPending → CanAssign S w

lemma canAssign_congr {w w' : World Conn} (htab : w'.tab = w.tab)
    (hcn : w'.sess.clientCn = w.sess.clientCn) (h : CanAssign S w) : CanAssign S w' := by
  unfold CanAssign
  rw [htab, hcn]
  exact h

lemma TakingRound.smooth (hS : S.Queues) {act : M Conn Bool} {w : World Conn}
    (h : TakingRound S addr b w.sess.state act n) (hw : Smooth S w) :
    Ends (fun u => u = w) act
      (fun goOn u => Smooth S u ∧ (goOn = false → u.sess.state = .closed)) fun _ => False := by
  generalize hst : w.sess.state = st at h
  cases h with
  | keys km n =>
    have hcan := hw (.inl hst)
    refine ends_bind (M := fun _ u => u.tab = w.tab ∧ u.sess.clientCn = w.sess.clientCn)
      (ends_modify fun u hu => hu ▸ ⟨rfl, rfl⟩) fun _ => ?_
    refine ends_bind (ends_handleKeyMethod2 hS km w.tab w.sess.clientCn) fun _ => ?_
    exact ends_pure fun u hu => ⟨fun _ => canAssign_congr hu.2.1 hu.2.2 hcan, nofun⟩
  | request msg n =>
    have hcan := hw (.inr hst)
    refine ends_bind (M := fun _ => CanAssign S)
      (ends_modify fun u hu => canAssign_congr rfl rfl (hu ▸ hcan)) fun _ => ?_
    dsimp only
    split
    · refine ends_bind (ends_handlePushRequest hS) fun _ => ends_pure fun u hu => ⟨?_, nofun⟩
      rintro (h | h) <;> rw [hu] at h <;> cases h
    · exact ends_pure fun u hu => ⟨fun _ => hu, nofun⟩
  | message msg n =>
    refine ends_bind (M := fun _ u => u.sess.state = .established)
      (ends_modify fun u hu => hu ▸ hst) fun _ => ?_
    split
    · refine ends_bind (M := fun _ u => u.sess.state = .closed) (ends_modify fun _ _ => rfl)
        fun _ => ends_pure fun u hu => ⟨?_, fun _ => hu⟩
      rintro (h | h) <;> rw [hu] at h <;> cases h
    · refine ends_pure fun u hu => ⟨?_, nofun⟩
      rintro (h | h) <;> rw [hu] at h <;> cases h

/-- The world with the connection and the plaintext put back. -/
def Unbared (u : World (Conn × List Bytes)) (b : Bytes) (w : World (Conn × List Bytes)) : Prop :=
  ∃ c, c.2 = u.queued ∧ w = u.setTls ⟨c, b⟩

/-- **The loop of `drive_control_plane` is the consumer.** -/
lemma driveLoop_consumes (hS : S.Queues) (addr : SocketAddr) (c₀ : Conn) (fuel : ℕ)
    {u w : World (Conn × List Bytes)} (hu : Smooth S.recording u) (hw : Unbared u b w) :
    Unbared ((controlPlane S addr c₀).drain fuel u b).1 ((controlPlane S addr c₀).drain fuel u b).2
        (driveLoop S.recording addr fuel w).2 ∧
      Smooth S.recording ((controlPlane S addr c₀).drain fuel u b).1 := by
  induction fuel generalizing u b w with
  | zero => exact ⟨hw, hu⟩
  | succ fuel ih =>
    obtain ⟨c, hc, rfl⟩ := hw
    rcases hact : roundAct S.recording addr u.sess.state b with _ | ⟨act, n⟩
    · -- nothing to take: neither goes on
      have hwait : controlPlane S addr c₀ u b = none := by rw [controlPlane, hact]; rfl
      obtain ⟨hsame, hstop⟩ : (driveRound S.recording addr (u.setTls ⟨c, b⟩)).2 = u.setTls ⟨c, b⟩ ∧
          (driveRound S.recording addr (u.setTls ⟨c, b⟩)).1 ≠ .ok true := driveRound_of_none hact
      rw [Consumer.drain_of_none hwait]
      refine ⟨⟨c, hc, ?_⟩, hu⟩
      rcases hrun : driveRound S.recording addr (u.setTls ⟨c, b⟩) with ⟨e | goOn, v⟩ <;>
        rw [hrun] at hsame hstop
      · rw [driveLoop, bind_error hrun]
        exact hsame
      · rw [driveLoop, bind_ok hrun]
        cases goOn with
        | true => exact absurd rfl hstop
        | false => exact hsame
    -- a message is taken alike by both, since the round sees nothing behind it
    · have hround := roundAct_eq_some.mp hact
      have htaken : controlPlane S addr c₀ u b = some ((act u).2.bare c₀, n) := by
        rw [controlPlane, hact]
        rfl
      obtain ⟨c', hc', hdone⟩ := hround.takes hS u ⟨c, b⟩ hc
      have hrun : driveRound S.recording addr (u.setTls ⟨c, b⟩) = act (u.setTls ⟨c, b⟩) :=
        driveRound_of_some hact
      rw [hdone] at hrun
      have hends := hround.smooth (recording_queues hS) hu u rfl
      rw [Consumer.drain_of_some htaken]
      have hbare : Unbared ((act u).2.bare c₀) (b.drop n) ((act u).2.setTls ⟨c', b.drop n⟩) :=
        ⟨c', hc', rfl⟩
      rcases hres : act u with ⟨e | goOn, v⟩ <;> rw [hres] at hends hrun hbare
      · exact hends.elim
      · have hsmooth : Smooth S.recording (v.bare c₀) := hends.1
        rw [driveLoop, bind_ok hrun]
        cases goOn with
        | true => exact ih hsmooth hbare
        -- the loop ends early only for a session that is closed, which takes nothing more either
        | false =>
          have hwait : controlPlane S addr c₀ (v.bare c₀) (b.drop n) = none := by
            rw [controlPlane, show (v.bare c₀).sess.state = .closed from hends.2 rfl]
            rfl
          rw [Consumer.drain_of_none hwait]
          exact ⟨hbare, hsmooth⟩

/-! ### Feeds as pieces of the stream -/

lemma feedLoop_recording (T : Rustls Conn) (fuel : ℕ) (c : Conn × List Bytes) (data : Bytes) :
    (TlsSession.feedLoop T.recording fuel c data).1.2 = c.2 := by
  induction fuel generalizing c data with
  | zero => rfl
  | succ fuel ih =>
    unfold TlsSession.feedLoop
    split
    · rfl
    · have hread : T.recording.readTls c data =
          (((T.readTls c.1 data).1, c.2), (T.readTls c.1 data).2) := rfl
      rw [hread]
      rcases (T.readTls c.1 data).2 with _ | _ | n
      · rfl
      · rfl
      · have hprocess : T.recording.processNewPackets ((T.readTls c.1 data).1, c.2) =
            (((T.processNewPackets (T.readTls c.1 data).1).1, c.2),
              (T.processNewPackets (T.readTls c.1 data).1).2) := rfl
        dsimp only
        rw [hprocess]
        rcases (T.processNewPackets (T.readTls c.1 data).1).2 with _ | _
        · rfl
        · exact ih _ _

lemma feed_recording {T : Rustls Conn} {t tls : TlsSession (Conn × List Bytes)} {data : Bytes}
    (h : t.feed T.recording data = (tls, .ok ())) :
    tls.conn.2 = t.conn.2 ∧
      tls.plaintextIn = t.plaintextIn ++ tls.plaintextIn.drop t.plaintextIn.length := by
  have hloop := feedLoop_recording T data.length t.conn data
  unfold TlsSession.feed at h
  rcases hfed : TlsSession.feedLoop T.recording data.length t.conn data with ⟨c, e | ⟨⟩⟩ <;>
    rw [hfed] at h hloop
  · cases (Prod.mk.inj h).2
  · obtain ⟨rfl, -⟩ := Prod.mk.inj h
    refine ⟨hloop, ?_⟩
    rw [List.drop_left]

lemma feedAndDrive_of_ok {w : World Conn} {tls : TlsSession Conn} {data : Bytes}
    (h : w.sess.tls.feed S.rustls data = (tls, .ok ())) :
    feedAndDrive S addr data w = driveControlPlane S addr (w.setTls tls) := by
  unfold feedAndDrive
  rw [get_bind, h]
  rfl

lemma feeds_consume (hS : S.Queues) (c₀ : Conn) {ds : List Bytes} {u w : World (Conn × List Bytes)}
    {plain : Bytes} (hu : Smooth S.recording u) (hw : Unbared u b w)
    (hd : delivered S.recording addr w ds = some plain) :
    ∃ pieces : List Bytes, pieces.flatten = plain ∧
      let r := pieces.foldl (fun x piece => (controlPlane S addr c₀).consume x.1 (x.2 ++ piece))
        (u, b)
      Unbared r.1 r.2 (feedAll S.recording addr w ds) := by
  induction ds generalizing u w b plain with
  | nil =>
    obtain rfl := Option.some.inj hd
    exact ⟨[], rfl, hw⟩
  | cons data ds ih =>
    obtain ⟨c, hc, rfl⟩ := hw
    unfold delivered at hd
    rcases hf : (u.setTls ⟨c, b⟩).sess.tls.feed S.recording.rustls data with ⟨tls, e | ⟨⟩⟩ <;>
      rw [hf] at hd
    · cases hd
    · obtain ⟨plain', hd', rfl⟩ := Option.map_eq_some_iff.mp hd
      obtain ⟨hq, hplain⟩ := feed_recording hf
      generalize tls.plaintextIn.drop (u.setTls ⟨c, b⟩).sess.tls.plaintextIn.length = piece
        at hplain ⊢
      change tls.plaintextIn = b ++ piece at hplain
      have hfed : Unbared u (b ++ piece) (u.setTls tls) := ⟨tls.conn, hq.trans hc, by rw [← hplain]⟩
      -- as many rounds as there are bytes are enough to take all that can be taken
      obtain ⟨hdone, hsmooth⟩ := driveLoop_consumes hS addr c₀ (tls.plaintextIn.length + 1) hu hfed
      rw [(controlPlane_steady S addr c₀).drain_eq (by rw [hplain]; exact Nat.le_succ _)]
        at hdone hsmooth
      have hstep : (feedAndDrive S.recording addr data (u.setTls ⟨c, b⟩)).2 =
          (driveLoop S.recording addr (tls.plaintextIn.length + 1) (u.setTls tls)).2 := by
        rw [feedAndDrive_of_ok hf]
        rfl
      rw [hstep] at hd'
      obtain ⟨pieces, hpieces, hrun⟩ := ih hsmooth hdone hd'
      refine ⟨piece :: pieces, by rw [List.flatten_cons, hpieces], ?_⟩
      rw [feedAll, run_cons, hstep]
      exact hrun

end Control

/-- **It does not matter how the plaintext is cut.** For every two sequences of feeds over which
the same plaintext comes out of the connection, the session ends the same, down to the replies
queued and the plaintext not yet taken, provided a `PUSH_REQUEST` finds its addresses. -/
theorem feeds_alike (S : VpnServer Conn) (addr : SocketAddr) (w : World (Conn × List Bytes))
    (ds₁ ds₂ : List Bytes) (plain : Bytes) (hS : S.Queues) (hw : w.sess.tls.plaintextIn = [])
    (hcan : CanAssign S.recording w) (h₁ : delivered S.recording addr w ds₁ = some plain)
    (h₂ : delivered S.recording addr w ds₂ = some plain) :
    SameButTls (feedAll S.recording addr w ds₁) (feedAll S.recording addr w ds₂) := by
  have hself : Unbared w [] w := ⟨w.sess.tls.conn, rfl, by rw [← hw]; rfl⟩
  have hsteady := controlPlane_steady S addr w.sess.tls.conn.1
  -- either run leaves what the consumer makes of the whole plaintext
  have hends {ds : List Bytes} (h : delivered S.recording addr w ds = some plain) :
      Unbared ((controlPlane S addr w.sess.tls.conn.1).consume w plain).1
        ((controlPlane S addr w.sess.tls.conn.1).consume w plain).2
        (feedAll S.recording addr w ds) := by
    obtain ⟨pieces, rfl, hrun⟩ :=
      feeds_consume hS w.sess.tls.conn.1 (fun _ => hcan) hself h
    have hpieces := hsteady.consume_pieces w [] pieces
    rw [Consumer.consume_nil, List.nil_append] at hpieces
    rw [← hpieces]
    exact hrun
  obtain ⟨c₁, hc₁, hw₁⟩ := hends h₁
  obtain ⟨c₂, hc₂, hw₂⟩ := hends h₂
  rw [hw₁, hw₂]
  exact ⟨rfl, rfl, hc₂.trans hc₁.symm⟩

def exchangingWorld : World (Plain × List Bytes) where
  sess := { Session.new 7 (.new ({ up := true }, [])) 1 (.udp plainAddr) (List.replicate 32 1)
      (List.replicate 32 1) 0 with
    clientSessionId := 5
    state := .keyExchange }
  tab := plainOpening.tab
  env := ⟨0, 0, none, [], [], 7, [], true⟩

/-- Key exchange, request and exit in one record, and byte by byte. -/
theorem feeds_alike_byByte :
    let plain := clientKm2 3 ++ Bytes.ascii "PUSH_REQUEST" ++ [0] ++ Bytes.ascii "EXIT" ++ [0]
    SameButTls (feedAll plainServer.recording plainAddr exchangingWorld [plain])
      (feedAll plainServer.recording plainAddr exchangingWorld (plain.map ([·]))) :=
  let plain := clientKm2 3 ++ Bytes.ascii "PUSH_REQUEST" ++ [0] ++ Bytes.ascii "EXIT" ++ [0]
  feeds_alike plainServer plainAddr exchangingWorld [plain] (plain.map ([·])) plain (fun _ _ => rfl)
    rfl (by decide +kernel) (by decide +kernel) (by decide +kernel)

end Javs
