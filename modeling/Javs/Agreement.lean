import Mathlib.Data.Nat.Digits.Defs
import Javs.Account
import Javs.DataPlane
import Javs.DataRoundTrip
import Javs.KeyMethod2

/-!
Client and server agree on their keys.

The client has its own key-method-2 message and reads the server's from the stream. From the two
messages and the two session ids it derives the key material, as the server does, and takes the
other half of it for sending. At every moment of a session the stream the client reads is a
function of what the session holds: nothing before the keys are exchanged, then the server's half
of the exchange, then the configuration with the session's own addresses.
-/

namespace Javs

open Lib Lib.Proc Relation M Bytes

variable {Conn : Type}

/-! ### The client -/

/-- How a client reads the server's message, and how many bytes of the stream it takes. -/
def ServerKeyMethod2.tryParse (buf : Bytes) : Res (Pop ServerKeyMethod2) :=
  if buf.length < 69 then .ok .needMore
  else if buf.take 5 ≠ [0, 0, 0, 0, keyMethod2] then .error (.bail "key-method 2")
  else
    withLpString buf 69 fun options off =>
      withLpString buf off fun username off =>
        withLpString buf off fun password off =>
          withLpString buf off fun peerInfo off =>
            .ok (.ready ⟨(buf.drop 5).take randomLen, (buf.drop 37).take randomLen, options,
              username, password, peerInfo⟩ off)

/-- The client's cipher: it encrypts with the first half of the key material. -/
def DataCipher.fromKeymatClient (km : Bytes) : DataCipher where
  encKey := km.take keySize
  decKey := (km.drop 128).take keySize
  encIv := (km.drop 64).take implicitIvSize
  decIv := (km.drop 192).take implicitIvSize

/-- The cipher of a client that sent `km` and reads `stream`. -/
def clientCipher (p : Primitives) (km : ClientKeyMethod2) (clientSid serverSid : SessionId)
    (stream : Bytes) : Option DataCipher :=
  match ServerKeyMethod2.tryParse stream with
  | .ok (.ready reply _) =>
    some (DataCipher.fromKeymatClient (deriveOpenvpnKeyData p km.preMaster km.random1 reply.random1
      km.random2 reply.random2 (putU64 clientSid) (putU64 serverSid)))
  | _ => none

/-! ### The server's message is read as it was written -/

namespace ServerKeyMethod2

structure Sendable (m : ServerKeyMethod2) : Prop where
  random1 : m.random1.length = randomLen
  random2 : m.random2.length = randomLen
  options : Fits m.options
  username : Fits m.username
  password : Fits m.password
  peerInfo : Fits m.peerInfo

def fixed (m : ServerKeyMethod2) : Bytes := [0, 0, 0, 0] ++ [keyMethod2] ++ m.random1 ++ m.random2

variable {m : ServerKeyMethod2}

lemma Sendable.length_fixed (h : m.Sendable) : m.fixed.length = 69 := by
  simp only [fixed, List.length_append, h.random1, h.random2]
  rfl

lemma Sendable.tryParse_encode (h : m.Sendable) (r : Bytes) :
    tryParse (m.encode ++ r) = .ok (.ready m m.encode.length) := by
  have hfixed := h.length_fixed
  have hlong : ¬ (m.encode ++ r).length < 69 := by
    have : m.encode = m.fixed ++ (writeLpString m.options ++ (writeLpString m.username ++
        (writeLpString m.password ++ writeLpString m.peerInfo))) := by
      simp only [encode, fixed, List.append_assoc]
    rw [this]
    simp only [List.length_append]
    omega
  -- the fixed part has its fields at fixed offsets; the strings are read one behind the other
  have hhead : (m.encode ++ r).take 5 = [0, 0, 0, 0, keyMethod2] := by
    simp [encode]
  have hr1 : ((m.encode ++ r).drop 5).take randomLen = m.random1 := by
    have hdrop : (m.encode ++ r).drop 5 = m.random1 ++ (m.random2 ++ (writeLpString m.options ++
        (writeLpString m.username ++ (writeLpString m.password ++
          (writeLpString m.peerInfo ++ r))))) := by
      simp [encode]
    rw [hdrop, List.take_left' h.random1]
  have hr2 : ((m.encode ++ r).drop 37).take randomLen = m.random2 := by
    have hdrop : (m.encode ++ r).drop 37 = m.random2 ++ (writeLpString m.options ++
        (writeLpString m.username ++ (writeLpString m.password ++
          (writeLpString m.peerInfo ++ r)))) := by
      have hsplit : m.encode ++ r = ([0, 0, 0, 0, keyMethod2] ++ m.random1) ++ (m.random2 ++
          (writeLpString m.options ++ (writeLpString m.username ++ (writeLpString m.password ++
            (writeLpString m.peerInfo ++ r))))) := by
        simp [encode]
      rw [hsplit, List.drop_left' (by simp [h.random1, randomLen])]
    rw [hdrop, List.take_left' h.random2]
  unfold tryParse
  rw [if_neg hlong, if_neg (not_not.mpr hhead), hr1, hr2,
    withLpString_write (x := m.fixed) (s := m.options)
      (by simp only [encode, fixed, List.append_assoc]; rfl) hfixed.symm h.options,
    withLpString_write (s := m.username) (by simp only [encode, fixed, List.append_assoc]; rfl) rfl
      h.username,
    withLpString_write (s := m.password) (by simp only [encode, fixed, List.append_assoc]; rfl) rfl
      h.password,
    withLpString_write (s := m.peerInfo) (by simp only [encode, fixed, List.append_assoc]; rfl) rfl
      h.peerInfo]
  rfl

end ServerKeyMethod2

lemma length_utf8_le (t : Text) : (utf8 t).length ≤ 4 * t.length := by
  induction t with
  | nil => simp [utf8]
  | cons c t ih =>
    have hc : (utf8Char c).length ≤ 4 := by
      unfold utf8Char
      dsimp only
      split_ifs <;> simp
    rw [utf8, List.flatMap_cons, List.length_append, List.length_cons]
    rw [utf8] at ih
    omega

lemma fits_of_length {t : Text} (h : t.length ≤ 1000) : Fits t := by
  have := length_utf8_le t
  unfold Fits
  omega

lemma fits_buildOptionsString (linkMtu tunMtu : UInt16) :
    Fits (buildOptionsString linkMtu tunMtu) := by
  have hdec (n : UInt16) : (dec n.toNat).length ≤ 5 :=
    Nat.toDigits_length 10 n.toNat 5 (by omega) (Nat.lt_of_lt_of_le n.toNat_lt (by omega))
  have hlink := hdec linkMtu
  have htun := hdec tunMtu
  have h1 : "V4,dev-type tun,link-mtu ".toList.length ≤ 100 := by decide
  have h2 : ",tun-mtu ".toList.length ≤ 100 := by decide
  have h3 : List.length
      ",proto UDPv4,cipher AES-256-GCM,auth SHA256,keysize 256,key-method 2,tls-server".toList ≤
        100 := by decide
  refine fits_of_length ?_
  unfold buildOptionsString
  rw [List.length_append, List.length_append, List.length_append, List.length_append]
  omega

lemma fits_buildPeerInfo : Fits buildPeerInfo := by
  refine fits_of_length ?_
  decide

def serverHalf (S : VpnServer Conn) (r1 r2 : Bytes) : ServerKeyMethod2 :=
  ⟨r1, r2, buildOptionsString (UInt16.ofNat (min (S.cfg.tunMtu.toNat + 42) 65535)) S.cfg.tunMtu,
    [], [], buildPeerInfo⟩

lemma sendable_serverHalf (S : VpnServer Conn) {r1 r2 : Bytes} (h1 : r1.length = randomLen)
    (h2 : r2.length = randomLen) : (serverHalf S r1 r2).Sendable :=
  ⟨h1, h2, fits_buildOptionsString _ _, fits_of_length (Nat.zero_le _),
    fits_of_length (Nat.zero_le _), fits_buildPeerInfo⟩

lemma clientCipher_reply (S : VpnServer Conn) (km : ClientKeyMethod2) {r1 r2 : Bytes}
    (h1 : r1.length = randomLen) (h2 : r2.length = randomLen) (clientSid serverSid : SessionId)
    (rest : Bytes) :
    clientCipher S.prims km clientSid serverSid (serverKeyMethod2 S r1 r2 ++ rest) =
      some (DataCipher.fromKeymatServer (deriveOpenvpnKeyData S.prims km.preMaster km.random1 r1
        km.random2 r2 (putU64 clientSid) (putU64 serverSid))).mirror := by
  have hparse : ServerKeyMethod2.tryParse (serverKeyMethod2 S r1 r2 ++ rest) =
      .ok (.ready (serverHalf S r1 r2) (serverKeyMethod2 S r1 r2).length) :=
    (sendable_serverHalf S h1 h2).tryParse_encode rest
  rw [clientCipher, hparse]
  rfl

/-! ### What the client has been told -/

/-- What a session with this account has told its client. -/
def Account.told (S : VpnServer Conn) (a : Account) : List Bytes :=
  (if a.state.unkeyed then [] else [a.keyReply S]) ++
    (match a.ip with
      | some (.v4 ip) => if a.state.early then [] else [a.pushReply S ip a.ip6]
      | _ => [])

/-- An account in which what was queued, installed and assigned goes with the state. -/
structure Account.Straight (S : VpnServer Conn) (a : Account) : Prop where
  told : ∃ n, a.queued = a.told S ++ List.replicate n restartNotice
  quiet : a.state.early = true → a.queued = a.told S
  bare : a.state.early = true → a.ip6 = none
  addressed : a.state.early = false → ∃ ip, a.ip = some (.v4 ip)
  unkeyed : a.state.unkeyed = true → a.installs = []

section Straight

variable {S : VpnServer Conn} {a b : Account}

lemma Account.Straight.of_early (he : a.state.early = true) (hq : a.queued = a.told S)
    (h6 : a.ip6 = none) (hu : a.state.unkeyed = true → a.installs = []) : a.Straight S where
  told := ⟨0, by simpa using hq⟩
  quiet _ := hq
  bare _ := h6
  addressed h := by rw [he] at h; cases h
  unkeyed := hu

lemma State.early_of_unkeyed {st : State} (h : st.unkeyed = true) : st.early = true := by
  cases st <;> first | rfl | cases h

lemma told_unkeyed (h : a.state.unkeyed = true) : a.told S = [] := by
  rw [Account.told, if_pos h]
  rcases a.ip with _ | ip | _
  · rfl
  · exact if_pos (State.early_of_unkeyed h)
  · rfl

lemma told_pushPending (h : a.state = .pushPending) : a.told S = [a.keyReply S] := by
  rw [Account.told, h]
  rcases a.ip with _ | _ | _ <;> rfl

lemma told_settled {ip : Ipv4Addr} (h : a.state.early = false) (hip : a.ip = some (.v4 ip)) :
    a.told S = [a.keyReply S, a.pushReply S ip a.ip6] := by
  have hkeyed : a.state.unkeyed = false := by
    revert h
    cases a.state <;> simp [State.early, State.unkeyed]
  simp [Account.told, hip, h, hkeyed]

lemma Account.Straight.settled (h : a.Straight S) (hs : a.state.early = false) :
    ∃ ip n, a.ip = some (.v4 ip) ∧
      a.queued = [a.keyReply S, a.pushReply S ip a.ip6] ++ List.replicate n restartNotice := by
  obtain ⟨ip, hip⟩ := h.addressed hs
  obtain ⟨n, hn⟩ := h.told
  rw [told_settled hs hip] at hn
  exact ⟨ip, n, hip, hn⟩

lemma head?_append_of_eq {l m : List KeySlot} {slot : KeySlot} (h : l.head? = some slot) :
    (l ++ m).head? = some slot := by
  rw [List.head?_append, h]
  rfl

lemma Account.Straight.of_settled {ip : Ipv4Addr} (hs : a.state.early = false)
    (hip : a.ip = some (.v4 ip))
    (hq : ∃ n, a.queued =
      [a.keyReply S, a.pushReply S ip a.ip6] ++ List.replicate n restartNotice) :
    a.Straight S where
  told := by
    obtain ⟨n, hn⟩ := hq
    exact ⟨n, by rw [told_settled hs hip, hn]⟩
  quiet h := by rw [hs] at h; cases h
  bare h := by rw [hs] at h; cases h
  addressed _ := ⟨ip, hip⟩
  unkeyed h := by rw [State.early_of_unkeyed h] at hs; cases hs

lemma Account.Straight.posting (h : a.Straight S) (he : Posting S a b) : b.Straight S := by
  cases he with
  | handshaken cn hs =>
    have hun : a.state.unkeyed = true := by rw [hs]; rfl
    have hqueued : a.queued = [] := (h.quiet (State.early_of_unkeyed hun)).trans (told_unkeyed hun)
    refine .of_early rfl ?_ (h.bare (State.early_of_unkeyed hun)) fun _ => h.unkeyed hun
    rw [told_unkeyed rfl]
    exact hqueued
  | keyed km hkm hs =>
    have hun : a.state.unkeyed = true := by rw [hs]; rfl
    have hqueued : a.queued = [] := (h.quiet (State.early_of_unkeyed hun)).trans (told_unkeyed hun)
    refine .of_early rfl ?_ (h.bare (State.early_of_unkeyed hun)) nofun
    rw [told_pushPending rfl, hqueued]
    rfl
  | assigned ip hs =>
    have hearly : a.state.early = true := by rw [hs]; rfl
    have hqueued : a.queued = [a.keyReply S] := (h.quiet hearly).trans (told_pushPending hs)
    refine .of_early hearly ?_ (h.bare hearly) h.unkeyed
    exact hqueued.trans (told_pushPending (a := { a with ip := some (.v4 ip) }) hs).symm
  | pushed ip ip6 hs =>
    have hearly : a.state.early = true := by rw [hs]; rfl
    have hqueued : a.queued = [a.keyReply S] := (h.quiet hearly).trans (told_pushPending hs)
    refine .of_settled rfl rfl ⟨0, ?_⟩
    have h6 : (ip6 <|> a.ip6) = ip6 := by rw [h.bare hearly]; cases ip6 <;> rfl
    rw [hqueued, h6]
    rfl
  | rekeyed km hkm keyId r1 r2 hs =>
    obtain ⟨ip, n, hip, hqueued⟩ := h.settled hs
    exact .of_settled hs hip ⟨n, hqueued⟩
  | closed hs =>
    have hearly : a.state.early = false := by rw [hs]; rfl
    obtain ⟨ip, n, hip, hqueued⟩ := h.settled hearly
    exact .of_settled rfl hip ⟨n, hqueued⟩
  | restarting hs =>
    have hearly : a.state.early = false := by rw [hs]; rfl
    obtain ⟨ip, n, hip, hqueued⟩ := h.settled hearly
    refine .of_settled hearly hip ⟨n + 1, ?_⟩
    rw [hqueued, List.append_assoc, List.replicate_succ']
    rfl

lemma Account.Straight.postings (h : a.Straight S) (he : Postings S a b) : b.Straight S := by
  induction he with
  | refl => exact h
  | tail _ he ih => exact ih.posting he

lemma Account.Straight.clientCipher (h : a.Straight S) (hs : a.state.unkeyed = false)
    (h1 : a.serverRandom1.length = randomLen) (h2 : a.serverRandom2.length = randomLen)
    (km : ClientKeyMethod2) :
    Javs.clientCipher S.prims km a.clientSid a.serverSid a.queued.flatten =
      some (KeySlot.fresh 0 (a.keyData S km a.serverRandom1 a.serverRandom2)).cipher.mirror := by
  obtain ⟨n, hn⟩ := h.told
  obtain ⟨rest, hrest⟩ : ∃ rest, a.queued.flatten = a.keyReply S ++ rest := by
    rw [hn, Account.told, if_neg (ne_true_of_eq_false hs)]
    exact ⟨_, by rw [List.append_assoc, List.singleton_append, List.flatten_cons]⟩
  rw [hrest, Account.keyReply, clientCipher_reply S km h1 h2]
  rfl

lemma postings_fixed (he : Postings S a b) :
    b.serverRandom1 = a.serverRandom1 ∧ b.serverRandom2 = a.serverRandom2 ∧
      b.clientSid = a.clientSid ∧ b.serverSid = a.serverSid := by
  induction he with
  | refl => exact ⟨rfl, rfl, rfl, rfl⟩
  | tail _ he ih => cases he <;> exact ih

end Straight

/-! ### Sessions -/

section Session

variable {S : VpnServer Conn}

lemma later_of_shaped {sess : Session Conn} (w : World Conn) (hw : w.sess = sess)
    (h : sess.Shaped) : sess.Later := by
  intro hrekey
  obtain ⟨rk, hrk⟩ := Option.isSome_iff_exists.mp hrekey
  have htrack := (h w hw).1.track
  have habs : w.abs.rekey = some rk.track := by
    simp [World.abs, hw, hrk]
  have hearly := htrack _ habs
  rw [← hw]
  exact hearly

lemma ledger_started (S : VpnServer Conn) (o : Opening (Conn × List Bytes)) :
    (started S.recording o).ledger = World.ledger
      ⟨newSession o.ctrl o.replayPid o.peerId o.transport o.conn o.env, o.tab, o.env, []⟩ := by
  have hgreet : Keeps World.ledger (greet S.recording o.ctrl) :=
    keeps_get_bind fun w => keepsAt_bind (keepsAt_set (ledger_tell rfl rfl rfl)) fun _ =>
      ledger_of_holdings (holdings_sendAndTrack S _)
  exact hgreet _

lemma account_started (S : VpnServer Conn) (o : Opening (Conn × List Bytes)) :
    (started S.recording o).account = {
      state := .handshaking, ip := none, ip6 := none, peerId := o.peerId, cn := none,
      serverRandom1 := o.env.random1, serverRandom2 := o.env.random2,
      clientSid := o.ctrl.sessionId, serverSid := o.env.serverSid, installs := [],
      queued := o.conn.2 } :=
  congrArg Prod.fst (ledger_started S o)

lemma run_postings (hS : S.Queues) (addr : SocketAddr) (o : Opening (Conn × List Bytes))
    (es : List (Event (Conn × List Bytes))) :
    (run (step S.recording addr) (started S.recording o) es).sess.Shaped ∧
      Postings S (started S.recording o).account
        (run (step S.recording addr) (started S.recording o) es).account := by
  have hstep (w : World (Conn × List Bytes)) (e : Event (Conn × List Bytes))
      (h : w.sess.Shaped ∧ Postings S (started S.recording o).account w.account) :
      (step S.recording addr w e).sess.Shaped ∧
        Postings S (started S.recording o).account (step S.recording addr w e).account :=
    ⟨h.1.step (recording_queues hS) addr e,
      h.2.trans (step_postings hS addr (later_of_shaped w rfl h.1) e)⟩
  exact run_invariant (I := fun w : World (Conn × List Bytes) => w.sess.Shaped ∧
    Postings S (started S.recording o).account w.account) hstep
      ⟨shaped_started S.recording o, .refl⟩

lemma straight_started (S : VpnServer Conn) {o : Opening (Conn × List Bytes)}
    (hconn : o.conn.2 = []) : (started S.recording o).account.Straight S := by
  rw [account_started]
  exact .of_early rfl hconn rfl fun _ => rfl

end Session

/-! ### What the session hears -/

/-- The packet an event feeds to the main connection. -/
def World.feeds (w : World Conn) : Event Conn → Option ControlPacket
  | .control _ ctrl replayPid =>
    if accepts w replayPid = true ∧ ctrl.op = .controlV1 ∧ isRekey w.sess ctrl = false then
      some ctrl
    else none
  | _ => none

/-- The plaintext that comes out of the main connection upon an event. -/
def World.hears (S : VpnServer Conn) (w : World Conn) (e : Event Conn) : Bytes :=
  ((w.feeds e).map fun ctrl => (w.sess.tls.feed S.rustls ctrl.payload).1.plaintextIn.drop
    w.sess.tls.plaintextIn.length).getD []

/-- The plaintext that comes out of the main connection over a run. -/
def heardPlaintext (S : VpnServer Conn) (addr : SocketAddr) (w : World Conn)
    (es : List (Event Conn)) : Bytes :=
  (trace (step S addr) w es).flatMap fun x => x.1.hears S x.2

def Account.firstSlot (S : VpnServer Conn) (km : ClientKeyMethod2) (a : Account) : KeySlot :=
  .fresh 0 (a.keyData S km a.serverRandom1 a.serverRandom2)

lemma postings_firstSlot {S : VpnServer Conn} {km : ClientKeyMethod2} {a b : Account}
    (he : Postings S a b) (h : a.installs.head? = some (a.firstSlot S km)) :
    b.installs.head? = some (b.firstSlot S km) := by
  induction he with
  | refl => exact h
  | tail _ he ih =>
    cases he with
    | keyed | rekeyed => exact head?_append_of_eq ih
    | _ => exact ih

section Quiet

variable {S : VpnServer Conn} {addr : SocketAddr} {w : World (Conn × List Bytes)}

def World.stand (w : World (Conn × List Bytes)) : State × Bytes :=
  (w.sess.state, w.sess.tls.plaintextIn)

lemma stand_of_ledger {α : Type} {m : M (Conn × List Bytes) α} (h : Keeps World.ledger m) :
    Keeps World.stand m := fun w => by
  have hledger : (m w).2.ledger = w.ledger := h w
  exact congrArg (fun l : Account × Bytes => (l.1.state, l.2)) hledger

lemma stand_of_holdings {α : Type} {m : M (Conn × List Bytes) α} (h : Keeps World.holdings m) :
    Keeps World.stand m := stand_of_ledger (ledger_of_holdings h)

lemma stand_driveRekeyControlPlane : Keeps World.stand (driveRekeyControlPlane S.recording) := by
  rw [driveRekeyControlPlane_eq]
  refine keeps_get_bind fun w => ?_
  rcases w.sess.rekey with _ | rk
  · exact keeps_pure _ w
  dsimp only
  split
  · exact keeps_pure _ w
  · refine keeps_bind (keeps_ofExcept _) (fun pop => ?_) w
    cases pop with
    | needMore => exact keeps_pure _
    | ready km n =>
      refine keeps_bind (keeps_modify fun _ => rfl) fun _ => ?_
      refine keeps_bind (keeps_modify fun _ => rfl) fun _ => ?_
      split
      · exact keeps_modify fun _ => rfl
      · exact keeps_throw _

lemma stand_handleRekeyControl (ctrl : ControlPacket) :
    Keeps World.stand (handleRekeyControl S.recording ctrl) := by
  have hrest : Keeps World.stand (do
      driveRekeyControlPlane S.recording
      flushRekeyOutgoing S.recording
      finishRekey : M (Conn × List Bytes) Unit) :=
    keeps_bind stand_driveRekeyControlPlane fun _ =>
      keeps_bind (stand_of_holdings (holdings_flushRekeyOutgoing S)) fun _ =>
        stand_of_ledger ledger_finishRekey
  refine keeps_get_bind fun w => ?_
  rcases w.sess.rekey with _ | rk
  · exact keeps_pure _ w
  · dsimp only
    generalize rk.tls.feed S.recording.rustls ctrl.payload = fed
    refine keepsAt_bind (keepsAt_set rfl) fun _ => ?_
    refine keeps_bind (stand_of_holdings (holdings_context _ _)) fun _ => ?_
    split
    · exact keeps_bind (keeps_modify fun _ => rfl) fun _ => hrest
    · exact hrest

lemma stand_shutdownClient (hS : S.Queues) : Keeps World.stand (shutdownClient S.recording) := by
  refine keeps_get_bind fun w => ?_
  split
  · exact keeps_pure _ w
  · rw [KeepsAt, bind_ok (sendPlaintext_recording hS _ _)]
    exact stand_of_holdings (holdings_flushOutgoing S) _

variable (addr) in
lemma stand_step (hS : S.Queues) {e : Event (Conn × List Bytes)} (h : w.feeds e = none) :
    (step S.recording addr w e).stand = w.stand := by
  cases e with
  | control env ctrl replayPid =>
    have haccept : Keeps World.stand (acceptControl ctrl replayPid : M (Conn × List Bytes) Unit) :=
      stand_of_holdings (holdings_acceptControl ctrl replayPid)
    rcases hacc : accepts w replayPid with _ | _
    · obtain ⟨e, t, ht, -⟩ := acceptControl_rejected (w := { w with env }) ctrl hacc
      have hsame := haccept { w with env }
      rw [KeepsAt, ht] at hsame
      rw [step, handleLocked, bind_error ht]
      exact hsame
    · obtain ⟨t, ht, -, -, hrekey, -⟩ := acceptControl_accepted (w := { w with env }) ctrl hacc
      have hsame := haccept { w with env }
      rw [KeepsAt, ht] at hsame
      rw [step, handleLocked, bind_ok ht]
      refine .trans ?_ hsame
      -- of the three ways a packet is dispatched, only the main track is excluded by `h`
      rcases dispatch_cases S.recording addr ctrl with ⟨hop, hd⟩ | hd | hd <;> rw [hd]
      · have hmine : isRekey t.sess ctrl = true := by
          unfold isRekey
          rw [hrekey]
          simpa [World.feeds, hacc, hop, isRekey] using h
        rw [get_bind, if_pos hmine]
        exact stand_handleRekeyControl ctrl t
      · exact stand_of_ledger (ledger_handleSoftReset S ctrl) t
      · rfl
  | data env pkt => exact stand_of_holdings (holdings_decryptAndForward S pkt) { w with env }
  | tun env ipPkt => exact stand_of_holdings (holdings_forwardLocked S ipPkt) { w with env }
  | ping env => exact stand_of_holdings (holdings_pingTick S) { w with env }
  | rekey env => exact stand_of_ledger (ledger_rekeyTick S) { w with env }
  | retransmit env => exact stand_of_holdings (holdings_retransmitTick S) { w with env }
  | shutdown env => exact stand_shutdownClient hS { w with env }
  | shared tab => rfl

end Quiet

section Fed

variable {S : VpnServer Conn} {addr : SocketAddr} {w : World (Conn × List Bytes)}
  {ctrl : ControlPacket}

def World.front (w : World Conn) : TlsSession Conn × State × Option Text × Tables :=
  (w.sess.tls, w.sess.state, w.sess.clientCn, w.tab)

lemma front_acceptControl (ctrl : ControlPacket) (replayPid : Option UInt32) :
    Keeps World.front (acceptControl ctrl replayPid : M Conn Unit) := by
  refine keeps_bind (keeps_modify fun _ => rfl) fun _ => keeps_bind ?_ fun _ => keeps_bind ?_
    fun _ => ?_
  · rcases replayPid with _ | pid
    · exact keeps_pure _
    · intro w
      rw [KeepsAt, checkReplay_some]
      rfl
  · unfold processAcks
    split
    · exact keeps_pure _
    · refine keeps_modify fun w => ?_
      simp only [Session.processAcks]
      split <;> rfl
  · rcases ctrl.packetId with _ | pid
    · exact keeps_pure _
    · refine keeps_modify fun w => ?_
      simp only [Session.noteReceived]
      split <;> rfl

lemma plaintextIn_fed (hok : (w.sess.tls.feed S.recording.rustls ctrl.payload).2 = .ok ()) :
    (w.fed S.recording ctrl).sess.tls.plaintextIn = w.sess.tls.plaintextIn ++
      (w.sess.tls.feed S.recording.rustls ctrl.payload).1.plaintextIn.drop
        w.sess.tls.plaintextIn.length := by
  have htls : (w.fed S.recording ctrl).sess.tls =
      (w.sess.tls.feed S.recording.rustls ctrl.payload).1 := by
    unfold World.fed Session.finalizeKeys
    dsimp only
    split
    · split <;> rfl
    · rfl
  rw [htls]
  exact (feed_recording (Prod.ext rfl hok)).2

variable (S addr) in
lemma step_of_feeds {e : Event (Conn × List Bytes)} (h : w.feeds e = some ctrl) :
    ∃ t, step S.recording addr w e = (handleMainControl S.recording addr ctrl t).2 ∧
      t.front = w.front ∧ t.account = w.account := by
  cases e with
  | control env ctrl' replayPid =>
    simp only [World.feeds, Option.ite_none_right_eq_some, Option.some.injEq] at h
    obtain ⟨⟨hacc, hop, hmain⟩, rfl⟩ := h
    obtain ⟨t, ht, -, -, hrekey, -⟩ := acceptControl_accepted (w := { w with env }) ctrl' hacc
    have hfront := front_acceptControl ctrl' replayPid { w with env }
    have hledger := ledger_of_holdings (holdings_acceptControl ctrl' replayPid) { w with env }
    rw [KeepsAt, ht] at hfront hledger
    refine ⟨t, ?_, hfront, congrArg Prod.fst hledger⟩
    have hmain' : ¬ isRekey t.sess ctrl' = true := by
      unfold isRekey at hmain ⊢
      rw [hrekey]
      exact ne_true_of_eq_false hmain
    rw [step, handleLocked, bind_ok ht, dispatch, hop]
    dsimp only
    rw [get_bind, if_neg hmain']
  | _ => cases h

end Fed

/-- Of a stream `p` a session has taken nothing yet, or has its keys from what it begins with. -/
inductive Exchanged (S : VpnServer Conn) (p : Bytes) (a : Account) (b : Bytes) : Prop
  | waiting (hs : a.state.unkeyed = true) (hb : b = p) (hnone : a.installs = [])
  | keyed (km n) (hs : a.state.unkeyed = false)
      (hp : ClientKeyMethod2.tryParse p = .ok (.ready km n))
      (hslot : a.installs.head? = some (a.firstSlot S km))

section Exchanged

variable {S : VpnServer Conn} {addr : SocketAddr} {p b : Bytes} {a a' : Account}
  {w : World (Conn × List Bytes)}

lemma postings_keyed (he : Postings S a a') (hs : a.state.unkeyed = false) :
    a'.state.unkeyed = false := by
  induction he with
  | refl => exact hs
  | tail _ he ih =>
    cases he with
    | handshaken cn hst =>
      rw [hst] at ih
      cases ih
    | keyed | pushed | closed => rfl
    | _ => exact ih

lemma Exchanged.postings {km : ClientKeyMethod2} {n : ℕ} (hs : a.state.unkeyed = false)
    (hp : ClientKeyMethod2.tryParse p = .ok (.ready km n))
    (hslot : a.installs.head? = some (a.firstSlot S km)) (he : Postings S a a') (more : Bytes) :
    Exchanged S (p ++ more) a' b := by
  refine .keyed km n (postings_keyed he hs) ?_ (postings_firstSlot he hslot)
  rw [ClientKeyMethod2.tryParse_append (by rw [hp]; nofun), hp]

variable (addr) in
lemma Exchanged.driveRound (hS : S.Queues)
    (h : Exchanged S p w.account w.sess.tls.plaintextIn) :
    Exchanged S p (driveRound S.recording addr w).2.account
      (driveRound S.recording addr w).2.sess.tls.plaintextIn := by
  cases h with
  | keyed km n hs hp hslot =>
    rw [← List.append_nil p]
    exact .postings hs hp hslot (driveRound_postings hS addr w) []
  | waiting hs hb hnone =>
    rcases hact : roundAct S.recording addr w.sess.state w.sess.tls.plaintextIn with _ | ⟨act, n⟩
    · rw [(driveRound_of_none hact).1]
      exact .waiting hs hb hnone
    · rw [driveRound_of_some hact]
      have htaking := roundAct_eq_some.mp hact
      generalize hst : w.sess.state = st at htaking
      have hun : st.unkeyed = true := hst ▸ hs
      -- without keys the only message that is taken is the one they come with
      cases htaking with
      | keys km n hkm =>
        have haccount := account_takeKeys hS km n w
        refine .keyed km n ?_ (hb ▸ hkm) ?_
        · rw [haccount]
          rfl
        · rw [haccount, hnone]
          rfl
      | request | message => cases hun

variable (addr) in
lemma Exchanged.driveLoop (hS : S.Queues) (fuel : ℕ)
    (h : Exchanged S p w.account w.sess.tls.plaintextIn) :
    Exchanged S p (driveLoop S.recording addr fuel w).2.account
      (driveLoop S.recording addr fuel w).2.sess.tls.plaintextIn := by
  induction fuel generalizing w with
  | zero => exact h
  | succ fuel ih =>
    have hround := h.driveRound addr hS
    unfold Javs.driveLoop
    rcases hr : Javs.driveRound S.recording addr w with ⟨e | goOn, t⟩ <;> rw [hr] at hround
    · rw [bind_error hr]
      exact hround
    · rw [bind_ok hr]
      cases goOn
      · exact hround
      · exact ih hround

lemma plaintextIn_feed_error {T : Rustls Conn} {t : TlsSession Conn} {data : Bytes} {e : Err}
    (h : (t.feed T data).2 = .error e) : (t.feed T data).1.plaintextIn = t.plaintextIn := by
  unfold TlsSession.feed at h ⊢
  rcases hfed : TlsSession.feedLoop T data.length t.conn data with ⟨c, e | ⟨⟩⟩ <;> rw [hfed] at h
  cases h

variable (addr) in
lemma Exchanged.handleMainControl (hS : S.Queues) (ctrl : ControlPacket)
    (hs : w.account.state.unkeyed = true) (hb : w.sess.tls.plaintextIn = p)
    (hnone : w.account.installs = []) :
    Exchanged S (p ++ (w.sess.tls.feed S.recording.rustls ctrl.payload).1.plaintextIn.drop p.length)
      (handleMainControl S.recording addr ctrl w).2.account
      (handleMainControl S.recording addr ctrl w).2.sess.tls.plaintextIn := by
  rcases hfeed : (w.sess.tls.feed S.recording.rustls ctrl.payload).2 with e | ⟨⟩
  · have hplain := plaintextIn_feed_error hfeed
    rw [handleMainControl_of_error addr hfeed, account_feed, hplain, hb, List.drop_length,
      List.append_nil]
    exact .waiting hs rfl hnone
  · rw [handleMainControl_of_ok addr hfeed]
    have hfed : Exchanged S
        (p ++ (w.sess.tls.feed S.recording.rustls ctrl.payload).1.plaintextIn.drop p.length)
        (w.fed S.recording ctrl).account (w.fed S.recording ctrl).sess.tls.plaintextIn := by
      have hplain := plaintextIn_fed hfeed
      rw [hb] at hplain
      -- the feed may end the handshake; either way the plaintext is still to be taken
      rcases account_fed S ctrl w with h | ⟨-, cn, h⟩ <;> rw [h]
      · exact .waiting hs hplain hnone
      · exact .waiting rfl hplain hnone
    generalize w.fed S.recording ctrl = u at hfed
    have hdrive := hfed.driveLoop addr hS (u.sess.tls.plaintextIn.length + 1)
    have hrun : driveControlPlane S.recording addr u =
      Javs.driveLoop S.recording addr (u.sess.tls.plaintextIn.length + 1) u := rfl
    rcases hr : Javs.driveLoop S.recording addr (u.sess.tls.plaintextIn.length + 1) u with
      ⟨e | ⟨⟩, t⟩ <;> rw [hr] at hdrive hrun
    · rw [bind_error hrun]
      exact hdrive
    · rw [bind_ok hrun]
      obtain ⟨haccount, hplain⟩ :=
        Prod.mk.inj (ledger_of_holdings (holdings_flushOutgoing S) t)
      rw [haccount, hplain]
      exact hdrive

lemma Exchanged.step (hS : S.Queues) (hw : w.sess.Shaped) (hstraight : w.account.Straight S)
    (h : Exchanged S p w.account w.sess.tls.plaintextIn) (e : Event (Conn × List Bytes)) :
    Exchanged S (p ++ w.hears S.recording e) (step S.recording addr w e).account
      (step S.recording addr w e).sess.tls.plaintextIn := by
  have hpostings := step_postings hS addr (later_of_shaped w rfl hw) e
  cases h with
  | keyed km n hs hp hslot => exact .postings hs hp hslot hpostings _
  | waiting hs hb hnone =>
    rcases hfeeds : w.feeds e with _ | ctrl
    · have hstand := stand_step addr hS hfeeds
      have hstate : (Javs.step S.recording addr w e).account.state = w.account.state :=
        congrArg Prod.fst hstand
      have hplain : (Javs.step S.recording addr w e).sess.tls.plaintextIn =
        w.sess.tls.plaintextIn := congrArg Prod.snd hstand
      have hhears : w.hears S.recording e = [] := by rw [World.hears, hfeeds]; rfl
      rw [hhears, List.append_nil]
      have hun := hstate ▸ hs
      exact .waiting hun (hplain.trans hb) ((hstraight.postings hpostings).unkeyed hun)
    · obtain ⟨t, hstep, hfront, haccount⟩ := step_of_feeds S addr hfeeds
      have htls : t.sess.tls = w.sess.tls := congrArg Prod.fst hfront
      have hhears : w.hears S.recording e =
          (t.sess.tls.feed S.recording.rustls ctrl.payload).1.plaintextIn.drop p.length := by
        rw [World.hears, hfeeds, htls, ← hb]
        rfl
      rw [hhears, hstep]
      exact .handleMainControl addr hS ctrl (haccount ▸ hs) (htls ▸ hb) (haccount ▸ hnone)

lemma heardPlaintext_concat (S : VpnServer Conn) (addr : SocketAddr) (w : World Conn)
    (es : List (Event Conn)) (e : Event Conn) :
    heardPlaintext S addr w (es ++ [e]) =
      heardPlaintext S addr w es ++ (run (step S addr) w es).hears S e := by
  simp [heardPlaintext, trace_append]

lemma Exchanged.run (hS : S.Queues) (addr : SocketAddr) {o : Opening (Conn × List Bytes)}
    (hconn : o.conn.2 = []) (es : List (Event (Conn × List Bytes))) :
    Exchanged S (heardPlaintext S.recording addr (started S.recording o) es)
      (Lib.run (Javs.step S.recording addr) (started S.recording o) es).account
      (Lib.run (Javs.step S.recording addr) (started S.recording o) es).sess.tls.plaintextIn := by
  induction es using List.reverseRecOn with
  | nil =>
    have haccount := account_started S o
    exact .waiting (congrArg (fun a => a.state.unkeyed) haccount)
      (congrArg Prod.snd (ledger_started S o)) (congrArg Account.installs haccount)
  | append_singleton es e ih =>
    obtain ⟨hshaped, hpostings⟩ := run_postings hS addr o es
    rw [heardPlaintext_concat, run_append]
    exact ih.step hS hshaped ((straight_started S hconn).postings hpostings) e

end Exchanged

/-- **The client is told what the session holds, and has its keys.** At any moment of any session,
if queuing plaintext does not fail: the plaintext queued for the client is the server's half of
the key exchange once the keys are exchanged, then the configuration with the addresses and the
peer id of the session once it has them, and then notices of a shutdown. And the client, which sent
the message at the head of the plaintext the session has heard, and reads the stream, derives the
mirror of the cipher in the first slot of the session. -/
theorem client_told_and_keyed (S : VpnServer Conn) (addr : SocketAddr)
    (o : Opening (Conn × List Bytes)) (es : List (Event (Conn × List Bytes))) (hS : S.Queues)
    (hconn : o.conn.2 = []) (h1 : o.env.random1.length = randomLen)
    (h2 : o.env.random2.length = randomLen) :
    let w := run (step S.recording addr) (started S.recording o) es
    (∃ n, w.queued = w.account.told S ++ List.replicate n restartNotice) ∧
      (w.sess.state.early = false → ∃ ip, w.sess.assignedIp = some (.v4 ip) ∧
        [w.account.keyReply S, w.account.pushReply S ip w.sess.assignedIpV6] <+: w.queued) ∧
      (w.sess.state.unkeyed = false → ∃ (km : ClientKeyMethod2) (n : ℕ) (slot : KeySlot),
        ClientKeyMethod2.tryParse (heardPlaintext S.recording addr (started S.recording o) es) =
          .ok (.ready km n) ∧
        (installs w.log).head? = some slot ∧ slot.keyId = 0 ∧
        clientCipher S.prims km o.ctrl.sessionId o.env.serverSid w.queued.flatten =
          some slot.cipher.mirror) := by
  intro w
  have hpostings : Postings S (started S.recording o).account w.account :=
    (run_postings hS addr o es).2
  have hstraight : w.account.Straight S := (straight_started S hconn).postings hpostings
  obtain ⟨hr1, hr2, hcsid, hssid⟩ := postings_fixed hpostings
  rw [account_started] at hr1 hr2 hcsid hssid
  refine ⟨hstraight.told, fun hearly => ?_, fun hkeyed => ?_⟩
  · obtain ⟨ip, n, hip, hqueued⟩ := hstraight.settled hearly
    exact ⟨ip, hip, List.replicate n restartNotice, hqueued.symm⟩
  · have hexchanged := Exchanged.run hS addr hconn es
    cases hexchanged with
    | waiting hs => cases hs.symm.trans hkeyed
    | keyed km n _ hparsed hhead =>
    refine ⟨km, n, _, hparsed, hhead, rfl, ?_⟩
    have hcipher := hstraight.clientCipher hkeyed (hr1 ▸ h1) (hr2 ▸ h2) km
    rwa [hcsid, hssid] at hcipher

def recordedEnv : Env (Plain × List Bytes) :=
  ⟨0, 0, some ({}, []), List.replicate 32 1, List.replicate 32 2, 7, [], true⟩

def recordedOpening : Opening (Plain × List Bytes) where
  env := recordedEnv
  conn := ({}, [])
  tab := plainOpening.tab
  ctrl := plainOpening.ctrl
  replayPid := none
  peerId := 1
  transport := .udp plainAddr

def recordedEstablishing : Event (Plain × List Bytes) :=
  .control recordedEnv
    (clientPacket .controlV1 0 1 (clientKm2 3 ++ Bytes.ascii "PUSH_REQUEST" ++ [0])) none

theorem client_told_and_keyed_established :
    let w := run (step plainServer.recording plainAddr) (started plainServer.recording
      recordedOpening) [recordedEstablishing, .shutdown recordedEnv]
    w.sess.state = .established ∧
      (∃ n, w.queued = w.account.told plainServer ++ List.replicate n restartNotice) ∧
      (w.sess.state.early = false → ∃ ip, w.sess.assignedIp = some (.v4 ip) ∧
        [w.account.keyReply plainServer, w.account.pushReply plainServer ip w.sess.assignedIpV6] <+:
          w.queued) ∧
      (w.sess.state.unkeyed = false → ∃ (km : ClientKeyMethod2) (n : ℕ) (slot : KeySlot),
        ClientKeyMethod2.tryParse (heardPlaintext plainServer.recording plainAddr
          (started plainServer.recording recordedOpening)
          [recordedEstablishing, .shutdown recordedEnv]) = .ok (.ready km n) ∧
        (installs w.log).head? = some slot ∧ slot.keyId = 0 ∧
        clientCipher plainServer.prims km 5 7 w.queued.flatten = some slot.cipher.mirror) :=
  ⟨by decide +kernel, client_told_and_keyed plainServer plainAddr recordedOpening _ (fun _ _ => rfl)
    rfl rfl rfl⟩

end Javs
