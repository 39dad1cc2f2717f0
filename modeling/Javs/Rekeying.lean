import Javs.Agreement
import Javs.Outward
import Javs.RekeyFailure
import Javs.RekeySpacing

/-!
Client and server agree on the keys of every rekey.

A rekey has a TLS connection of its own, with fresh random values on both sides. On it the server
queues its half of the exchange and nothing else, so that a client which reads the connection
derives, from the message it sent there, the mirror of the cipher in the slot the server installs.
-/

namespace Javs

open Lib Lib.Proc Relation M Bytes

variable {Conn : Type}

/-! ### What the main track installs -/

section Main

variable {S : VpnServer Conn} {addr : SocketAddr} {n : ℕ} {a b : Abs}

/-- What a handler of the main track has installed since the log had `n` entries. -/
structure Installed (n : ℕ) (a b : Abs) (new : List KeySlot) : Prop where
  len : n ≤ b.log.length
  all : installs b.log = installs a.log ++ new
  since : installs (b.log.drop n) = new
  one : new.length ≤ 1
  none : a.state.unkeyed = false → new = [] ∧ b.state.unkeyed = false

lemma Installed.tell {c : Abs} {e : Effect} {new : List KeySlot} (h : Installed n a b new)
    (he : installs [e] = []) (hl : c.log = b.log ++ [e])
    (hs : b.state.unkeyed = false → c.state.unkeyed = false) : Installed n a c new where
  len := by rw [hl, List.length_append]; exact h.len.trans (Nat.le_add_right _ _)
  all := by rw [hl, installs_append, he, List.append_nil, h.all]
  since := by rw [hl, List.drop_append_of_le_length h.len, installs_append, he, List.append_nil,
    h.since]
  one := h.one
  none hk := ⟨(h.none hk).1, hs (h.none hk).2⟩

lemma Installed.advance {c : Abs} {new : List KeySlot} (h : Installed n a b new)
    (hl : c.log = b.log) (hs : c.state.unkeyed = false) : Installed n a c new where
  len := hl ▸ h.len
  all := by rw [hl, h.all]
  since := by rw [hl, h.since]
  one := h.one
  none hk := ⟨(h.none hk).1, hs⟩

lemma installed_moves (hn : n ≤ a.log.length) (h0 : installs (a.log.drop n) = [])
    (h : ReflTransGen (Move S addr n .main) a b) : ∃ new, Installed n a b new := by
  induction h with
  | refl => exact ⟨[], hn, (List.append_nil _).symm, h0, Nat.zero_le _, fun hk => ⟨rfl, hk⟩⟩
  | @tail b c _ hm ih =>
    obtain ⟨new, ih⟩ := ih
    cases hm with
    | installed _ slot hs hk hf hnone =>
      have hnew : new = [] := ih.since.symm.trans hnone
      refine ⟨[slot], ?_, ?_, ?_, le_rfl, fun hkeyed => ?_⟩
      · exact ih.len.trans (by simp [Abs.tell])
      · rw [Abs.tell, installs_append, ih.all, hnew, List.append_nil]
        rfl
      · rw [Abs.tell, List.drop_append_of_le_length ih.len, installs_append, hnone]
        rfl
      · -- the first exchange comes in a state without keys
        have hstate := (ih.none hkeyed).2
        rw [hs] at hstate
        cases hstate
    | handshaken _ hs =>
      refine ⟨new, ih.tell rfl rfl fun hstate => ?_⟩
      rw [hs] at hstate
      cases hstate
    | keyed _ hs ha => exact ⟨new, ih.advance rfl rfl⟩
    | established _ hs ha => exact ⟨new, ih.advance rfl rfl⟩
    | closed _ hs => exact ⟨new, ih.advance rfl rfl⟩
    | _ => exact ⟨new, ih.tell rfl rfl id⟩

end Main

/-! ### The connection of a rekey -/

/-- On the connection of the rekey, if there is one, the server's half of the exchange is queued
and nothing else. -/
def Halves (S : VpnServer Conn) : Option (Bytes × Bytes × List Bytes) → Prop
  | none => True
  | some (r1, r2, queued) => r1.length = randomLen ∧ r2.length = randomLen ∧
      ∀ m ∈ queued, m = serverKeyMethod2 S r1 r2

/-- A new connection has nothing queued on it, and the random values are whole. -/
def Env.Fresh (env : Env (Conn × List Bytes)) : Prop :=
  (∀ c ∈ env.conn, c.2 = []) ∧ env.random1.length = randomLen ∧ env.random2.length = randomLen

section Track

variable {S : VpnServer Conn} {w : World (Conn × List Bytes)} {rk : RekeyTrack (Conn × List Bytes)}

lemma papers_of_rekey (h : w.sess.rekey = some rk) :
    w.papers = some (rk.serverRandom1, rk.serverRandom2, rk.tls.conn.2) := by
  rw [World.papers, h, Option.map_some]

lemma exchanged_queued (hS : S.Queues) {km : ClientKeyMethod2} {n : ℕ}
    (hkx : rk.state = .keyExchange)
    (hkm : ClientKeyMethod2.tryParse rk.tls.plaintextIn = .ok (.ready km n)) :
    (rk.tls.drain n).sendPlaintext S.recording.rustls
        (serverKeyMethod2 S rk.serverRandom1 rk.serverRandom2) =
      (rk.exchanged S.recording, true) ∧
    (rk.exchanged S.recording).conn.2 =
      rk.tls.conn.2 ++ [serverKeyMethod2 S rk.serverRandom1 rk.serverRandom2] := by
  have hok := hS rk.tls.conn.1 (serverKeyMethod2 S rk.serverRandom1 rk.serverRandom2)
  have hreply : serverKeyMethod2 S.recording rk.serverRandom1 rk.serverRandom2 =
      serverKeyMethod2 S rk.serverRandom1 rk.serverRandom2 := rfl
  unfold RekeyTrack.exchanged
  rw [if_pos hkx, hkm]
  dsimp only
  rw [hreply]
  constructor
  · exact Prod.ext rfl hok
  · simp [TlsSession.sendPlaintext, TlsSession.drain, VpnServer.recording, Rustls.recording, hok]

lemma driveRekeyControlPlane_recording (hS : S.Queues) (hrk : w.sess.rekey = some rk) :
    (driveRekeyControlPlane S.recording w).2 = w ∨
    ∃ km n v, ClientKeyMethod2.tryParse rk.tls.plaintextIn = .ok (.ready km n) ∧
      driveRekeyControlPlane S.recording w = (.ok (), v) ∧
      installs v.log = installs w.log ++
        [.fresh rk.keyId (w.account.keyData S km rk.serverRandom1 rk.serverRandom2)] ∧
      w.log <+: v.log ∧
      v.sess.rekey = some { rk with tls := rk.exchanged S.recording, keyMethodSent := true } ∧
      (rk.exchanged S.recording).conn.2 =
        rk.tls.conn.2 ++ [serverKeyMethod2 S rk.serverRandom1 rk.serverRandom2] := by
  rw [driveRekeyControlPlane_eq, get_bind, hrk]
  dsimp only
  by_cases hkx : rk.state = .keyExchange
  swap
  · rw [if_pos hkx]
    exact .inl rfl
  rw [if_neg (not_not.mpr hkx)]
  rcases hkm : ClientKeyMethod2.tryParse rk.tls.plaintextIn with e | ⟨km, n⟩ | _
  · exact .inl rfl
  · obtain ⟨hsend, hqueued⟩ := exchanged_queued hS hkx hkm
    have hreply : serverKeyMethod2 S.recording rk.serverRandom1 rk.serverRandom2 =
      serverKeyMethod2 S rk.serverRandom1 rk.serverRandom2 := rfl
    rw [bind_ok (ofExcept_apply _ _)]
    dsimp only
    rw [hreply, hsend]
    refine .inr ⟨km, n, _, rfl, rfl, ?_, ⟨[_, _], (List.append_assoc w.log [_] [_]).symm⟩, rfl,
      hqueued⟩
    show installs (w.log ++ [_] ++ [_]) = _
    rw [installs_append, installs_append, show installs [Effect.replied _] = [] from rfl,
      List.append_nil]
    rfl
  · exact .inl rfl

lemma flushRekeyOutgoing_drains (S : VpnServer Conn) {w : World Conn} {rk : RekeyTrack Conn}
    (hrk : w.sess.rekey = some rk) :
    Effect.drained (.rekey rk.keyId) (rk.tls.takeOutgoing S.rustls).2 ∈
      (flushRekeyOutgoing S w).2.log.drop w.log.length := by
  rw [flushRekeyOutgoing_eq, get_bind, hrk]
  dsimp only
  rw [put_bind]
  split
  · show _ ∈ (w.log ++ [_]).drop w.log.length
    rw [List.drop_left]
    exact List.mem_singleton_self _
  · obtain ⟨es, hlog, -⟩ := (loop_sendChunks (S := S) (.rekey rk.keyId) rk.keyId
      (chunks maxTlsPayloadPerControl (rk.tls.takeOutgoing S.rustls).2)
      { w with
        sess := { w.sess with rekey := some { rk with tls := (rk.tls.takeOutgoing S.rustls).1 } }
        log := w.log ++ [.drained (.rekey rk.keyId)
          (rk.tls.takeOutgoing S.rustls).2] }).progress.log
    rw [hlog, List.append_assoc, List.drop_left]
    exact List.mem_cons_self

lemma flush_finish (S : VpnServer Conn) (hp : Halves S w.papers) :
    let w' := ((flushRekeyOutgoing S.recording >>= fun _ => finishRekey) w).2
    Halves S w'.papers ∧ w'.account = w.account ∧
      (flushRekeyOutgoing S.recording w).2.log <+: w'.log := by
  have hflush := holdings_flushRekeyOutgoing S w
  rcases hf : flushRekeyOutgoing S.recording w with ⟨e | ⟨⟩, v⟩ <;> rw [KeepsAt, hf] at hflush
  · rw [bind_error hf]
    have hpapers : v.papers = w.papers := congrArg Prod.snd hflush
    exact ⟨hpapers ▸ hp, congrArg (fun h => h.1.1) hflush, List.prefix_rfl⟩
  rw [bind_ok hf]
  have haccount : (finishRekey v).2.account = v.account :=
    congrArg Prod.fst (ledger_finishRekey v)
  have hpapers : v.papers = w.papers := congrArg Prod.snd hflush
  have hpv : Halves S v.papers := hpapers ▸ hp
  refine ⟨?_, haccount.trans (congrArg (fun h => h.1.1) hflush), ?_⟩
  · rw [finishRekey_eq, get_bind]
    rcases hrk : v.sess.rekey with _ | rk
    · exact hpv
    · dsimp only
      split
      · exact trivial
      · exact hpv
  · rw [finishRekey_eq, get_bind]
    rcases v.sess.rekey with _ | rk
    · exact List.prefix_rfl
    · dsimp only
      split
      · exact List.prefix_append _ _
      · exact List.prefix_rfl

/-- The slot `slot` comes from the message `km` on the track `rk`: what is queued on the
connection is the server's half of that exchange, and the flush among `es` took it along. -/
structure Exchange (S : VpnServer Conn) (a : Account) (rk : RekeyTrack (Conn × List Bytes))
    (slot : KeySlot) (km : ClientKeyMethod2) (es : List Effect) : Prop where
  message : ∃ n, ClientKeyMethod2.tryParse rk.tls.plaintextIn = .ok (.ready km n)
  slot : slot = .fresh rk.keyId (a.keyData S km rk.serverRandom1 rk.serverRandom2)
  random1 : rk.serverRandom1.length = randomLen
  random2 : rk.serverRandom2.length = randomLen
  queued : ∃ rest, (rk.exchanged S.recording).conn.2 =
    serverKeyMethod2 S rk.serverRandom1 rk.serverRandom2 :: rest
  drained : Effect.drained (.rekey rk.keyId)
    ((rk.exchanged S.recording).takeOutgoing S.recording.rustls).2 ∈ es

lemma Exchange.mono {a : Account} {slot : KeySlot} {km : ClientKeyMethod2} {es es' : List Effect}
    (h : Exchange S a rk slot km es) (hsub : es ⊆ es') : Exchange S a rk slot km es' :=
  { h with drained := hsub h.drained }

lemma exchange_rest (hS : S.Queues) (hrk : w.sess.rekey = some rk) (hp : Halves S w.papers) :
    let w' := ((do
      driveRekeyControlPlane S.recording
      flushRekeyOutgoing S.recording
      finishRekey : M (Conn × List Bytes) Unit) w).2
    Halves S w'.papers ∧ (installs w'.log = installs w.log ∨
      ∃ slot km, installs w'.log = installs w.log ++ [slot] ∧
        Exchange S w.account rk slot km (w'.log.drop w.log.length)) := by
  have hhalves : Halves S (some (rk.serverRandom1, rk.serverRandom2, rk.tls.conn.2)) :=
    papers_of_rekey hrk ▸ hp
  obtain ⟨hr1, hr2, hqueued⟩ := hhalves
  rcases driveRekeyControlPlane_recording hS hrk with
    hsame | ⟨km, n, v, hkm, hdrive, hinst, hext, hrkv, hq⟩
  · rcases hd : driveRekeyControlPlane S.recording w with ⟨e | ⟨⟩, v⟩ <;> rw [hd] at hsame <;>
      subst hsame
    · rw [bind_error hd]
      exact ⟨hp, .inl rfl⟩
    · rw [bind_ok hd]
      obtain ⟨hp', haccount, -⟩ := flush_finish S hp
      exact ⟨hp', .inl (congrArg Account.installs haccount)⟩
  · rw [bind_ok hdrive]
    have hall : ∀ m ∈ (rk.exchanged S.recording).conn.2,
        m = serverKeyMethod2 S rk.serverRandom1 rk.serverRandom2 := by
      intro m hm
      rw [hq] at hm
      rcases List.mem_append.mp hm with hm | hm
      · exact hqueued m hm
      · exact List.mem_singleton.mp hm
    have hpv : Halves S v.papers := by
      rw [papers_of_rekey hrkv]
      exact ⟨hr1, hr2, hall⟩
    obtain ⟨hp', haccount, hlog⟩ := flush_finish S hpv
    have hdrained := (hlog.drop _).subset (flushRekeyOutgoing_drains S.recording hrkv)
    refine ⟨hp', .inr ⟨_, km, (congrArg Account.installs haccount).trans hinst,
      ⟨n, hkm⟩, rfl, hr1, hr2, ?_, List.drop_subset_drop_left _ hext.length_le hdrained⟩⟩
    rcases hc : (rk.exchanged S.recording).conn.2 with _ | ⟨m, rest⟩
    · rw [hc] at hq
      simp at hq
    · exact ⟨rest, by rw [hall m (hc ▸ List.mem_cons_self)]⟩

lemma halves_feed (hrk : w.sess.rekey = some rk) (hp : Halves S w.papers) (data : Bytes)
    {u : World (Conn × List Bytes)} {rk' : RekeyTrack (Conn × List Bytes)}
    (hrku : u.sess.rekey = some rk') (h1 : rk'.serverRandom1 = rk.serverRandom1)
    (h2 : rk'.serverRandom2 = rk.serverRandom2)
    (htls : rk'.tls = (rk.tls.feed S.recording.rustls data).1) : Halves S u.papers := by
  have hfeed : rk'.tls.conn.2 = rk.tls.conn.2 := by
    rw [htls]
    exact feed_queued S.rustls rk.tls data
  rw [papers_of_rekey hrku, h1, h2, hfeed, ← papers_of_rekey hrk]
  exact hp

lemma handleRekeyControl_exchange (hS : S.Queues) (hrk : w.sess.rekey = some rk)
    (hp : Halves S w.papers) (ctrl : ControlPacket) :
    let w' := (handleRekeyControl S.recording ctrl w).2
    Halves S w'.papers ∧ (installs w'.log = installs w.log ∨
      ∃ slot km, installs w'.log = installs w.log ++ [slot] ∧
        Exchange S w.account (rk.fed S.recording ctrl.payload) slot km
          (w'.log.drop w.log.length)) := by
  rcases hfeed : (rk.tls.feed S.recording.rustls ctrl.payload).2 with e | ⟨⟩
  · rw [handleRekeyControl_of_error hrk hfeed]
    refine ⟨halves_feed hrk hp ctrl.payload rfl rfl rfl rfl, .inl ?_⟩
    rw [installs_append]
    exact List.append_nil _
  · have hrest := exchange_rest (w := w.rekeyFed S.recording rk ctrl) hS rfl
      (halves_feed hrk hp ctrl.payload rfl rfl rfl rfl)
    have haccount := account_rekeyFed S rk ctrl w
    have hinst : installs (w.rekeyFed S.recording rk ctrl).log = installs w.log :=
      congrArg Account.installs haccount
    have hext : w.log <+: (w.rekeyFed S.recording rk ctrl).log :=
      (List.prefix_append w.log _).trans (List.prefix_append _ _)
    rw [haccount, hinst] at hrest
    rw [handleRekeyControl_of_ok hrk hfeed]
    refine hrest.imp_right (Or.imp_right ?_)
    rintro ⟨slot, km, hslot, hex⟩
    exact ⟨slot, km, hslot, hex.mono (List.drop_subset_drop_left _ hext.length_le)⟩

end Track

/-! ### The other handlers -/

section Handlers

variable {S : VpnServer Conn} {w : World (Conn × List Bytes)}

lemma papers_of_holdings {α : Type} {m : M (Conn × List Bytes) α} (h : Keeps World.holdings m) :
    Keeps World.papers m := fun w => congrArg Prod.snd (h w)

lemma papers_of_aside {α : Type} {m : M (Conn × List Bytes) α} (h : Keeps World.aside m) :
    Keeps World.papers m := by
  intro w
  have hrekey : (m w).2.sess.rekey = w.sess.rekey := congrArg Prod.snd (h w)
  rw [KeepsAt, World.papers, hrekey]
  rfl

lemma papers_handleMainControl (addr : SocketAddr) (ctrl : ControlPacket) :
    Keeps World.papers (handleMainControl S.recording addr ctrl) := by
  intro w
  rcases hfeed : (w.sess.tls.feed S.recording.rustls ctrl.payload).2 with e | ⟨⟩
  · rw [KeepsAt, handleMainControl_of_error addr hfeed]
    rfl
  · rw [KeepsAt, handleMainControl_of_ok addr hfeed]
    have hfed : (w.fed S.recording ctrl).papers = w.papers := by
      unfold World.fed
      dsimp only
      split
      · unfold Session.finalizeKeys
        split <;> rfl
      · rfl
    rw [← hfed]
    exact keeps_bind (papers_of_aside (aside_driveControlPlane S.recording addr))
      (fun _ => papers_of_holdings (holdings_flushOutgoing S)) _

lemma papers_shutdownClient : Keeps World.papers (shutdownClient S.recording) := by
  refine keeps_get_bind fun w => ?_
  split
  · exact keeps_pure _ w
  · exact keeps_bind (papers_of_aside (aside_sendPlaintext S.recording _))
      (fun _ => papers_of_holdings (holdings_flushOutgoing S)) w

lemma halves_start {u : World (Conn × List Bytes)} {keyId : UInt8} {conn : Conn × List Bytes}
    {env : Env (Conn × List Bytes)} (henv : env.Fresh) (hconn : env.conn = some conn)
    (hrk : u.sess.rekey = some (freshTrack keyId conn env)) : Halves S u.papers := by
  rw [papers_of_rekey hrk]
  refine ⟨henv.2.1, henv.2.2, fun m hm => ?_⟩
  have hempty : conn.2 = [] := henv.1 conn hconn
  rw [show (freshTrack keyId conn env).tls.conn.2 = conn.2 from rfl, hempty] at hm
  cases hm

lemma halves_handleSoftReset (hp : Halves S w.papers) (henv : w.env.Fresh) (ctrl : ControlPacket) :
    Halves S (handleSoftReset S.recording ctrl w).2.papers := by
  by_cases hrk : w.sess.rekey.isSome
  · rw [handleSoftReset, get_bind, if_pos hrk]
    exact hp
  by_cases hst : w.sess.state = .established
  swap
  · rw [handleSoftReset, get_bind, if_neg hrk, if_pos hst]
    exact hp
  rcases hconn : w.env.conn with _ | conn
  · rw [handleSoftReset, get_bind, if_neg hrk, if_neg (not_not.mpr hst), hconn]
    exact hp
  · exact halves_start henv hconn
      (handleSoftReset_starts hst (by simpa using hrk) hconn ctrl).rekey

lemma halves_rekeyTick (hp : Halves S w.papers) (henv : w.env.Fresh) :
    Halves S (rekeyTick S.recording w).2.papers := by
  by_cases hst : w.sess.state ≠ .established ∨ w.sess.rekey.isSome
  · rw [rekeyTick, get_bind, if_pos hst]
    exact hp
  obtain ⟨hest, hrk⟩ := not_or.mp hst
  by_cases hdue : RekeyDue S.recording w
  swap
  · rw [rekeyTick, get_bind, if_neg hst, if_pos (Nat.lt_of_not_le hdue)]
    exact hp
  rcases hconn : w.env.conn with _ | conn
  · rw [rekeyTick, get_bind, if_neg hst, if_neg (Nat.not_lt.mpr hdue), hconn]
    exact hp
  · exact halves_start henv hconn
      (rekeyTick_starts (not_not.mp hest) (by simpa using hrk) hdue hconn).rekey

end Handlers

/-! ### Sessions -/

section Session

variable {S : VpnServer Conn} {addr : SocketAddr}

/-- The event completes the exchange of a rekey: it installs `slot`, `km` is what the client has
said on the connection of the rekey, and `stream` what is queued there for it to read, which a
flush of the same event takes along. -/
def Completes (S : VpnServer Conn) (addr : SocketAddr) (w : World (Conn × List Bytes))
    (e : Event (Conn × List Bytes)) (slot : KeySlot) (km : ClientKeyMethod2) (stream : Bytes) :
    Prop :=
  let w' := step S.recording addr w e
  ∃ env ctrl replayPid rk n, e = .control env ctrl replayPid ∧ w.sess.rekey = some rk ∧
    slot.keyId = rk.keyId ∧ installs w'.log = installs w.log ++ [slot] ∧
    let fed := rk.fed S.recording ctrl.payload
    ClientKeyMethod2.tryParse fed.tls.plaintextIn = .ok (.ready km n) ∧
      stream = (fed.exchanged S.recording).conn.2.flatten ∧
      Effect.drained (.rekey rk.keyId)
        ((fed.exchanged S.recording).takeOutgoing S.recording.rustls).2 ∈
          w'.log.drop w.log.length

lemma Exchange.clientCipher {a : Account} {rk : RekeyTrack (Conn × List Bytes)} {slot : KeySlot}
    {km : ClientKeyMethod2} {es : List Effect} (h : Exchange S a rk slot km es) :
    Javs.clientCipher S.prims km a.clientSid a.serverSid
      (rk.exchanged S.recording).conn.2.flatten = some slot.cipher.mirror := by
  obtain ⟨rest, hrest⟩ := h.queued
  rw [hrest, List.flatten_cons, clientCipher_reply S km h.random1 h.random2, h.slot]
  rfl

def AtMostFirst (w w' : World (Conn × List Bytes)) : Prop :=
  ∃ new, installs w'.log = installs w.log ++ new ∧ new.length ≤ 1 ∧
    (w.sess.state.unkeyed = false → new = [])

def SharedBy (S : VpnServer Conn) (addr : SocketAddr) (clientSid serverSid : SessionId)
    (w : World (Conn × List Bytes)) (e : Event (Conn × List Bytes)) (slot : KeySlot) : Prop :=
  ∃ km stream, Completes S addr w e slot km stream ∧
    Javs.clientCipher S.prims km clientSid serverSid stream = some slot.cipher.mirror

def RekeysShared (S : VpnServer Conn) (addr : SocketAddr) (w : World (Conn × List Bytes))
    (e : Event (Conn × List Bytes)) : Prop :=
  ∃ slot, installs (step S.recording addr w e).log = installs w.log ++ [slot] ∧
    SharedBy S addr w.sess.clientSessionId w.sess.serverSessionId w e slot

variable {w w' : World (Conn × List Bytes)}

lemma atMostFirst_of_ledger (h : w'.ledger = w.ledger) : AtMostFirst w w' := by
  have hinst : installs w'.log = installs w.log := congrArg (fun l => l.1.installs) h
  exact ⟨[], by rw [hinst, List.append_nil], Nat.zero_le _, fun _ => rfl⟩

lemma step_of_holdings (hp : Halves S w.papers) (h : w'.holdings = w.holdings) :
    Halves S w'.papers ∧ AtMostFirst w w' := by
  have hpapers : w'.papers = w.papers := congrArg Prod.snd h
  exact ⟨hpapers ▸ hp, atMostFirst_of_ledger (congrArg Prod.fst h)⟩

lemma handleMainControl_installs (S : VpnServer Conn) (addr : SocketAddr)
    {t : World (Conn × List Bytes)} {ctrl : ControlPacket} (ht : t.abs = w.abs.hear ctrl) :
    AtMostFirst w (handleMainControl S.recording addr ctrl t).2 := by
  have hmoves : Relation.ReflTransGen (Move S.recording addr w.log.length .main)
      (t.abs.tell (.feed .main ctrl)) (handleMainControl S.recording addr ctrl t).2.abs :=
    handleMainControl_moves (at_hear ht).1 (at_hear ht).2 ctrl
  have hlog : t.log = w.log ++ ackOf ctrl := (congrArg Abs.log ht).trans (log_hear _ _)
  have hdrop : installs ((t.abs.tell (.feed .main ctrl)).log.drop w.log.length) = [] := by
    rw [Abs.tell, show t.abs.log = t.log from rfl, hlog, List.append_assoc, List.drop_left,
      installs_append, ackOf]
    split <;> rfl
  obtain ⟨new, hnew⟩ := installed_moves (by simp [Abs.tell, World.abs, hlog]) hdrop hmoves
  refine ⟨new, ?_, hnew.one, fun hkeyed => (hnew.none ?_).1⟩
  · have hall : installs (handleMainControl S.recording addr ctrl t).2.log =
        installs (t.log ++ [.feed .main ctrl]) ++ new := hnew.all
    rw [hall, hlog, installs_append, installs_append, ackOf]
    split <;> simp [installs]
  · have hstate : t.sess.state = w.sess.state :=
      (congrArg Abs.state ht).trans (hear_state _ _)
    show t.sess.state.unkeyed = false
    rw [hstate, hkeyed]

lemma handleLocked_installs (hS : S.Queues) (hp : Halves S w.papers)
    {env : Env (Conn × List Bytes)} (henv : env.Fresh) (ctrl : ControlPacket)
    (replayPid : Option UInt32) :
    let w' := step S.recording addr w (.control env ctrl replayPid)
    Halves S w'.papers ∧
      (AtMostFirst w w' ∨ RekeysShared S addr w (.control env ctrl replayPid)) := by
  intro w'
  have haccept := holdings_acceptControl ctrl replayPid { w with env }
  rcases hacc : accepts w replayPid with _ | _
  · obtain ⟨e, t, ht, -⟩ := acceptControl_rejected (w := { w with env }) ctrl hacc
    have hw' : w' = t := by
      show (handleLocked S.recording addr ctrl replayPid { w with env }).2 = t
      rw [handleLocked, bind_error ht]
    rw [KeepsAt, ht] at haccept
    exact hw' ▸ (step_of_holdings hp haccept).imp_right .inl
  obtain ⟨t, ht, habs, htenv, hrekey, -⟩ :=
    acceptControl_accepted (w := { w with env }) ctrl hacc
  rw [KeepsAt, ht] at haccept
  have hw' : w' = (dispatch S.recording addr ctrl t).2 := by
    show (handleLocked S.recording addr ctrl replayPid { w with env }).2 = _
    rw [handleLocked, bind_ok ht]
  have haccount : t.account = w.account := congrArg (fun h => h.1.1) haccept
  have hpt : Halves S t.papers := by
    have hpapers : t.papers = w.papers := congrArg Prod.snd haccept
    exact hpapers ▸ hp
  rcases dispatch_cases S.recording addr ctrl with ⟨hop, hd⟩ | hd | hd
  · rw [hd, get_bind] at hw'
    split at hw'
    · rename_i hmine
      obtain ⟨rk, hrk, -⟩ := isRekey_iff.mp hmine
      obtain ⟨hp', hinst⟩ := handleRekeyControl_exchange hS hrk hpt ctrl
      have hinstt : installs t.log = installs w.log := congrArg Account.installs haccount
      rw [← hw'] at hp' hinst
      rw [hinstt, haccount] at hinst
      refine ⟨hp', ?_⟩
      rcases hinst with hnone | ⟨slot, km, hinst, hex⟩
      · exact .inl ⟨[], by rw [hnone, List.append_nil], Nat.zero_le _, fun _ => rfl⟩
      · obtain ⟨n, hkm⟩ := hex.message
        have hlog : w.log <+: t.log := ⟨_, ((congrArg Abs.log habs).trans (log_hear _ _)).symm⟩
        refine .inr ⟨slot, hinst, km, _, ⟨env, ctrl, replayPid, rk, n, rfl, hrekey ▸ hrk, ?_, hinst,
          hkm, rfl, List.drop_subset_drop_left _ hlog.length_le hex.drained⟩, hex.clientCipher⟩
        rw [hex.slot]
        rfl
    · rw [hw']
      exact ⟨(papers_handleMainControl addr ctrl t).symm ▸ hpt,
        .inl (handleMainControl_installs S addr habs)⟩
  · rw [hd] at hw'
    rw [hw']
    refine ⟨halves_handleSoftReset hpt (htenv ▸ henv) ctrl, .inl (atMostFirst_of_ledger ?_)⟩
    exact (ledger_handleSoftReset S ctrl t).trans (congrArg Prod.fst haccept)
  · rw [hd] at hw'
    exact hw' ▸ (step_of_holdings hp haccept).imp_right .inl

lemma step_installs (addr : SocketAddr) (hS : S.Queues) (hp : Halves S w.papers)
    (e : Event (Conn × List Bytes)) (henv : ∀ env ∈ e.env?, env.Fresh) :
    let w' := step S.recording addr w e
    Halves S w'.papers ∧ (AtMostFirst w w' ∨ RekeysShared S addr w e) := by
  cases e with
  | control env ctrl replayPid => exact handleLocked_installs hS hp (henv env rfl) ctrl replayPid
  | data env pkt =>
    exact (step_of_holdings hp (holdings_decryptAndForward S pkt { w with env })).imp_right .inl
  | tun env ipPkt =>
    exact (step_of_holdings hp (holdings_forwardLocked S ipPkt { w with env })).imp_right .inl
  | ping env => exact (step_of_holdings hp (holdings_pingTick S { w with env })).imp_right .inl
  | retransmit env =>
    exact (step_of_holdings hp (holdings_retransmitTick S { w with env })).imp_right .inl
  | rekey env =>
    have hp' : Halves S (World.papers { w with env }) := hp
    exact ⟨halves_rekeyTick hp' (henv env rfl),
      .inl (atMostFirst_of_ledger (ledger_rekeyTick S { w with env }))⟩
  | shutdown env =>
    have hp' : Halves S (shutdownClient S.recording { w with env }).2.papers :=
      (papers_shutdownClient { w with env }).symm ▸ hp
    refine ⟨hp', .inl ⟨[], ?_, Nat.zero_le _, fun _ => rfl⟩⟩
    rw [List.append_nil]
    show installs (shutdownClient S.recording { w with env }).2.log = _
    unfold shutdownClient
    rw [get_bind]
    split
    · rfl
    · rw [bind_ok (sendPlaintext_recording hS _ _)]
      exact congrArg (fun h => h.1.1.installs) (holdings_flushOutgoing S _)
  | shared tab => exact (step_of_holdings hp rfl).imp_right .inl

/-- A session whose rekeys carry the server's halves, and whose ids are those it began with. -/
structure Sharing (S : VpnServer Conn) (o : Opening (Conn × List Bytes))
    (w : World (Conn × List Bytes)) : Prop where
  papers : Halves S w.papers
  shaped : w.sess.Shaped
  postings : Postings S (started S.recording o).account w.account

lemma Sharing.sids {o : Opening (Conn × List Bytes)} (h : Sharing S o w) :
    w.sess.clientSessionId = o.ctrl.sessionId ∧ w.sess.serverSessionId = o.env.serverSid := by
  obtain ⟨-, -, hcsid, hssid⟩ := postings_fixed h.postings
  rw [account_started] at hcsid hssid
  exact ⟨hcsid, hssid⟩

lemma sharing_started (S : VpnServer Conn) (o : Opening (Conn × List Bytes)) :
    Sharing S o (started S.recording o) := by
  refine ⟨?_, shaped_started S.recording o, .refl⟩
  have hholds : Keeps World.holdings (greet S.recording o.ctrl) :=
    keeps_get_bind fun w => keepsAt_bind (keepsAt_set (holdings_tell rfl rfl rfl)) fun _ =>
      holdings_sendAndTrack S _
  have hnone : (started S.recording o).papers = none := congrArg Prod.snd (hholds _)
  rw [hnone]
  trivial

lemma Sharing.step {o : Opening (Conn × List Bytes)} (addr : SocketAddr) (hS : S.Queues)
    (h : Sharing S o w) {e : Event (Conn × List Bytes)} (henv : ∀ env ∈ e.env?, env.Fresh) :
    Sharing S o (Javs.step S.recording addr w e) where
  papers := (step_installs addr hS h.papers e henv).1
  shaped := h.shaped.step (recording_queues hS) addr e
  postings := h.postings.trans (step_postings hS addr (later_of_shaped w rfl h.shaped) e)

lemma Sharing.tail {o : Opening (Conn × List Bytes)} (hS : S.Queues) (hconn : o.conn.2 = [])
    (h : Sharing S o w) {e : Event (Conn × List Bytes)} (henv : ∀ env ∈ e.env?, env.Fresh)
    {slot : KeySlot} (hslot : slot ∈ (installs (Javs.step S.recording addr w e).log).tail) :
    slot ∈ (installs w.log).tail ∨
      SharedBy S addr o.ctrl.sessionId o.env.serverSid w e slot := by
  rcases (step_installs addr hS h.papers e henv).2 with
    ⟨new, hnew, hone, hnone⟩ | ⟨slot', hnew, hshared⟩ <;> rw [hnew] at hslot
  · rcases hkeyed : w.sess.state.unkeyed with _ | _
    · rw [hnone hkeyed, List.append_nil] at hslot
      exact .inl hslot
    · -- what is installed is the first slot
      have hstraight := (straight_started S hconn).postings h.postings
      have hnil : installs w.log = [] := hstraight.unkeyed hkeyed
      have htail : new.tail = [] := List.eq_nil_of_length_eq_zero (by
        rw [List.length_tail]
        omega)
      rw [hnil, List.nil_append, htail] at hslot
      cases hslot
  · rw [List.tail_append] at hslot
    split at hslot
    · cases hslot
    · rcases List.mem_append.mp hslot with hslot | hslot
      · exact .inl hslot
      · rw [h.sids.1, h.sids.2] at hshared
        exact .inr (List.mem_singleton.mp hslot ▸ hshared)

end Session

/-- **The client has the keys of every rekey.** If queuing plaintext does not fail, every slot of
a session after the first is installed by a packet of a rekey: `km` is the message the client has
sent on the connection of that rekey, what is queued there for the client begins with the server's
half of the exchange and goes out with the flush that follows, and a client that sent `km` and
reads the connection derives the mirror of the cipher in the slot. -/
theorem client_keyed_by_rekeys (S : VpnServer Conn) (addr : SocketAddr)
    (o : Opening (Conn × List Bytes)) (es : List (Event (Conn × List Bytes))) (hS : S.Queues)
    (hconn : o.conn.2 = []) (henv : ∀ e ∈ es, ∀ env ∈ e.env?, env.Fresh) :
    let w := run (step S.recording addr) (started S.recording o) es
    ∀ slot ∈ (installs w.log).tail,
      ∃ x ∈ trace (step S.recording addr) (started S.recording o) es, ∃ km stream,
        Completes S addr x.1 x.2 slot km stream ∧
        clientCipher S.prims km o.ctrl.sessionId o.env.serverSid stream =
          some slot.cipher.mirror := by
  intro w slot hslot
  have horigin := run_origin (C := fun _ e => ∀ env ∈ e.env?, env.Fresh) (I := Sharing S o)
    (f := fun w : World (Conn × List Bytes) => (installs w.log).tail)
    (P := SharedBy S addr o.ctrl.sessionId o.env.serverSid)
    (fun w e h henv => h.step addr hS henv)
    (fun w e h henv slot hslot => h.tail hS hconn henv hslot) (sharing_started S o)
    (fun x hx => henv x.2 (mem_of_mem_trace _ hx)) slot hslot
  rcases horigin with hfirst | hshared
  · have hnil : installs (started S.recording o).log = [] :=
      congrArg Account.installs (account_started S o)
    rw [hnil] at hfirst
    cases hfirst
  · exact hshared

def recordedRekey : List (Event (Plain × List Bytes)) :=
  [recordedEstablishing,
    .control recordedEnv (clientPacket .controlSoftResetV1 1 2 []) none,
    .control recordedEnv (clientPacket .controlV1 1 3 (clientKm2 4)) none]

lemma recordedRekey_facts :
    ∃ slot ∈ (installs (run (step plainServer.recording plainAddr)
      (started plainServer.recording recordedOpening) recordedRekey).log).tail, slot.keyId = 1 := by
  decide +kernel

theorem client_keyed_by_rekeys_one :
    ∃ slot ∈ (installs (run (step plainServer.recording plainAddr)
      (started plainServer.recording recordedOpening) recordedRekey).log).tail, slot.keyId = 1 ∧
      ∃ x ∈ trace (step plainServer.recording plainAddr)
        (started plainServer.recording recordedOpening) recordedRekey, ∃ km stream,
          Completes plainServer plainAddr x.1 x.2 slot km stream ∧
          clientCipher plainServer.prims km 5 7 stream = some slot.cipher.mirror := by
  obtain ⟨slot, hslot, hkey⟩ := recordedRekey_facts
  refine ⟨slot, hslot, hkey, ?_⟩
  refine client_keyed_by_rekeys plainServer plainAddr recordedOpening recordedRekey
    (fun _ _ => rfl) rfl ?_ slot hslot
  have hfresh : recordedEnv.Fresh := ⟨fun c hc => by cases hc; rfl, rfl, rfl⟩
  intro e he env henv
  have hsame : env = recordedEnv := by
    simp only [recordedRekey, recordedEstablishing, List.mem_cons, List.not_mem_nil, or_false] at he
    rcases he with rfl | rfl | rfl <;> cases henv <;> rfl
  exact hsame ▸ hfresh

end Javs
