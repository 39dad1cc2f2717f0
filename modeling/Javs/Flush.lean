import Javs.EnvelopeInverse
import Javs.Reliability

/-!
What a flush puts on the wire, and what it keeps for retransmission.

A flush takes the outgoing bytes out of a TLS context, cuts them into pieces, and sends each in
a control packet of its own, the first of which carries the pending acknowledgements. A packet
is recorded for retransmission once its send has succeeded, and the flush ends with the first
send that fails. So everything is recorded if all sends succeed; if one fails, the bytes behind
it are in no packet, a packet id is used up, and the acknowledgements may be gone.
-/

namespace Javs

open Lib Lib.Proc M Bytes

variable {Conn : Type}

/-! ### Pieces -/

lemma flatten_pieces (n k : ℕ) (b : Bytes) :
    ((List.range k).map fun i => (b.drop (i * n)).take n).flatten = b.take (k * n) := by
  induction k with
  | zero => simp
  | succ k ih =>
    rw [List.range_succ, List.map_append, List.flatten_append, ih, Nat.succ_mul, List.take_add]
    simp

lemma length_le_pieces {n : ℕ} (hn : 0 < n) (k : ℕ) : k ≤ (k + n - 1) / n * n := by
  have h := Nat.lt_div_mul_add hn (a := k + n - 1)
  omega

lemma flatten_chunks {n : ℕ} (hn : 0 < n) (b : Bytes) : (chunks n b).flatten = b := by
  rw [chunks, flatten_pieces]
  exact List.take_of_length_le (length_le_pieces hn b.length)

lemma of_mem_chunks {n : ℕ} (hn : 0 < n) {b c : Bytes} (hc : c ∈ chunks n b) :
    c ≠ [] ∧ c.length ≤ n := by
  obtain ⟨i, hi, rfl⟩ := List.mem_map.mp hc
  have hlt : (i + 1) * n ≤ b.length + n - 1 :=
    (Nat.le_div_iff_mul_le hn).mp (List.mem_range.mp hi)
  rw [Nat.succ_mul] at hlt
  constructor
  · intro hnil
    have hlen := congrArg List.length hnil
    rw [List.length_take, List.length_drop, List.length_nil] at hlen
    omega
  · rw [List.length_take]
    exact Nat.min_le_left _ _

/-! ### Sends that succeed -/

def World.Succeeds (w : World Conn) (n : ℕ) : Prop := ∀ b ∈ w.env.sends.take n, b = true

instance (w : World Conn) (n : ℕ) : Decidable (w.Succeeds n) :=
  inferInstanceAs (Decidable (∀ b ∈ w.env.sends.take n, b = true))

lemma World.succeeds_one {w : World Conn} : w.Succeeds 1 ↔ w.env.sends.head? ≠ some false := by
  unfold World.Succeeds
  rcases w.env.sends with _ | ⟨_ | _, rest⟩ <;> simp

/-- How many of the next `n` sends succeed before one fails. -/
def lucky : List Bool → ℕ → ℕ
  | _, 0 => 0
  | false :: _, _ + 1 => 0
  | true :: bs, n + 1 => lucky bs n + 1
  | [], n + 1 => lucky [] n + 1

lemma lucky_le (bs : List Bool) (n : ℕ) : lucky bs n ≤ n := by
  fun_induction lucky bs n <;> omega

lemma lucky_eq_iff (bs : List Bool) (n : ℕ) : lucky bs n = n ↔ ∀ b ∈ bs.take n, b = true := by
  fun_induction lucky bs n with
  | case1 => simp
  | case2 bs n => simp
  | case3 bs n ih => simpa using ih
  | case4 n ih => simpa using ih

lemma lucky_succ {bs : List Bool} (h : bs.head? ≠ some false) (n : ℕ) :
    lucky bs (n + 1) = lucky bs.tail n + 1 := by
  rcases bs with _ | ⟨_ | _, bs⟩
  · rfl
  · exact absurd rfl h
  · rfl

lemma lucky_zero {bs : List Bool} (h : bs.head? = some false) (n : ℕ) : lucky bs n = 0 := by
  rcases bs with _ | ⟨_ | _, bs⟩ <;> cases n <;> first | rfl | cases h

/-! ### One packet -/

/-- The entry of the retransmit queue for a packet sent at the time `now`. -/
def ControlPacket.record (p : ControlPacket) (now : ℕ) : Unacked :=
  ⟨p.packetId.getD 0, p.encode, now, 1⟩

lemma ControlPacket.length_encode (p : ControlPacket) : 9 ≤ p.encode.length := by
  simp only [encode, List.length_append, length_putU64, List.length_singleton]
  omega

section Envelope

variable (S : VpnServer Conn)

def VpnServer.enveloped : Bool := S.tlsCrypt.isSome || S.tlsAuth.isSome

/-- The envelope around `inner`, with the id and the time it carries. -/
def VpnServer.envelope (inner : Bytes) (pid ts : UInt32) : Res Bytes :=
  match S.tlsCrypt, S.tlsAuth with
  | some tc, _ => tc.wrap S.prims inner pid ts
  | none, some ta => ta.wrap S.prims inner pid ts
  | none, none => .ok inner

/-- The envelope id after `pid`: 0 is skipped, and without an envelope no id is used. -/
def VpnServer.nextId (pid : UInt32) : UInt32 :=
  if S.enveloped then if pid = 0xFFFFFFFF then 1 else pid + 1 else pid

lemma wrapForWire_eq (inner : Bytes) (w : World Conn) :
    wrapForWire S inner w = (S.envelope inner w.sess.tlsAuthPidOut w.env.unixTime,
      { w with sess := { w.sess with tlsAuthPidOut := S.nextId w.sess.tlsAuthPidOut } }) := by
  obtain ⟨cfg, poolEnd, poolEndV6, tlsCrypt, tlsAuth, prims, rustls⟩ := S
  rcases tlsCrypt with _ | tc <;> rcases tlsAuth with _ | ta <;> rfl

lemma envelope_ok {inner : Bytes} (h : 9 ≤ inner.length) (pid ts : UInt32) :
    ∃ b, S.envelope inner pid ts = .ok b := by
  obtain ⟨op, sid, body, hsid, rfl⟩ := exists_header h
  unfold VpnServer.envelope
  rcases S.tlsCrypt with _ | tc
  · rcases S.tlsAuth with _ | ta
    · exact ⟨_, rfl⟩
    · exact ⟨_, TlsAuthKey.wrap_cons _ hsid pid ts body ta⟩
  · exact ⟨_, TlsCryptKey.wrap_cons _ hsid pid ts body tc⟩

/-- The bytes `b` are the packet in an envelope of the server. -/
def VpnServer.Envelops (pkt : ControlPacket) (b : Bytes) : Prop :=
  ∃ pid ts, S.envelope pkt.encode pid ts = .ok b

lemma wrapForWire_apply (pkt : ControlPacket) (w : World Conn) :
    ∃ wire pid, S.Envelops pkt wire ∧ wrapForWire S pkt.encode w =
      (.ok wire, { w with sess := { w.sess with tlsAuthPidOut := pid } }) := by
  obtain ⟨wire, hwire⟩ := envelope_ok S pkt.length_encode w.sess.tlsAuthPidOut w.env.unixTime
  exact ⟨wire, _, ⟨_, _, hwire⟩, by rw [wrapForWire_eq, hwire]⟩

end Envelope

def Effect.wire? : Effect → Option Bytes
  | .wire b => some b
  | _ => none

def wires (log : List Effect) : List Bytes := log.filterMap Effect.wire?

section Send

variable {S : VpnServer Conn}

lemma transportSend_apply (bytes : Bytes) (w : World Conn) :
    (w.env.sends.head? = some false ∧ ∃ e, transportSend bytes w =
      (.error e, { w with env := { w.env with sends := w.env.sends.tail } })) ∨
    (w.env.sends.head? ≠ some false ∧ transportSend bytes w =
      (.ok (), { w with env := { w.env with sends := w.env.sends.tail },
                        log := w.log ++ [.wire bytes] })) := by
  simp only [transportSend, get_bind]
  rcases hs : w.env.sends with _ | ⟨_ | _, rest⟩
  · exact .inr ⟨by simp, rfl⟩
  · refine .inl ⟨rfl, ?_⟩
    rcases w.sess.transport <;> exact ⟨_, rfl⟩
  · exact .inr ⟨by simp, rfl⟩

/-- The effects `es` send the packets `pkts`: the datagrams among them are these packets, each in
an envelope of its own. -/
structure Sends (S : VpnServer Conn) (es : List Effect) (pkts : List ControlPacket) : Prop where
  sent : sentPackets es = pkts
  wires : List.Forall₂ S.Envelops pkts (wires es)

lemma Sends.append {es es' : List Effect} {ps qs : List ControlPacket} (h : Sends S es ps)
    (h' : Sends S es' qs) : Sends S (es ++ es') (ps ++ qs) := by
  refine ⟨by rw [sentPackets_append, h.sent, h'.sent], ?_⟩
  rw [Javs.wires, List.filterMap_append]
  exact List.rel_append h.wires h'.wires

/-- The world after `pkts` have been sent one after the other and recorded, where other parts of
the session may have changed. -/
structure Progress (S : VpnServer Conn) (w w' : World Conn) (pkts : List ControlPacket) :
    Prop where
  unacked : w'.sess.unacked = w.sess.unacked ++ pkts.map (·.record w.env.now)
  log : ∃ es, w'.log = w.log ++ es ∧ Sends S es pkts
  now : w'.env.now = w.env.now

lemma Progress.trans {w w' w'' : World Conn} {ps qs : List ControlPacket} (h : Progress S w w' ps)
    (h' : Progress S w' w'' qs) : Progress S w w'' (ps ++ qs) := by
  obtain ⟨es, hes, hsends⟩ := h.log
  obtain ⟨es', hes', hsends'⟩ := h'.log
  refine ⟨?_, ⟨es ++ es', by rw [hes', hes, List.append_assoc], hsends.append hsends'⟩,
    h'.now.trans h.now⟩
  rw [h'.unacked, h.unacked, h.now, List.map_append, List.append_assoc]

structure SameSource (s s' : Session Conn) : Prop where
  nextPacketId : s'.nextPacketId = s.nextPacketId
  pendingAcks : s'.pendingAcks = s.pendingAcks
  serverSessionId : s'.serverSessionId = s.serverSessionId
  clientSessionId : s'.clientSessionId = s.clientSessionId

/-- Sending a packet uses up an id of the envelope and at most adds to the retransmit queue. -/
def SentFrom (s s' : Session Conn) : Prop :=
  ∃ tlsAuthPidOut unacked, s' = { s with tlsAuthPidOut, unacked }

lemma SentFrom.sameSource {s s' : Session Conn} (h : SentFrom s s') : SameSource s s' := by
  obtain ⟨_, _, rfl⟩ := h
  exact ⟨rfl, rfl, rfl, rfl⟩

lemma sendAndTrack_apply (pkt : ControlPacket) (hid : pkt.packetId.isSome) (w : World Conn) :
    ∃ r w', sendAndTrack S pkt w = (r, w') ∧ SentFrom w.sess w'.sess ∧
      w'.env.sends = w.env.sends.tail ∧
      ((w.env.sends.head? = some false ∧ (∃ e, r = .error e) ∧ Progress S w w' []) ∨
       (w.env.sends.head? ≠ some false ∧ r = .ok () ∧ Progress S w w' [pkt])) := by
  obtain ⟨p, hp⟩ := Option.isSome_iff_exists.mp hid
  obtain ⟨wire, pid, henv, hw⟩ := wrapForWire_apply S pkt w
  rw [sendAndTrack, bind_ok hw]
  rcases transportSend_apply wire { w with sess := { w.sess with tlsAuthPidOut := pid } } with
    ⟨hf, e, hs⟩ | ⟨hf, hs⟩
  · rw [bind_error hs]
    exact ⟨_, _, rfl, ⟨_, _, rfl⟩, rfl, .inl ⟨hf, ⟨e, rfl⟩, by simp,
      ⟨[], by simp, rfl, .nil⟩, rfl⟩⟩
  · rw [bind_ok hs, hp]
    refine ⟨_, _, rfl, ⟨_, _, rfl⟩, rfl, .inr ⟨hf, rfl, ?_, ?_, rfl⟩⟩
    · simp [Session.recordSent, ControlPacket.record, hp]
    · exact ⟨[.wire wire, .sent pkt], by simp, rfl, .cons henv .nil⟩

/-! ### The packets of a flush -/

/-- The packets around the pieces `cs`, from the session as it is. -/
def fragments (keyId : UInt8) : Session Conn → List Bytes → List ControlPacket
  | _, [] => []
  | s, c :: cs => (s.makeControl keyId c).1 :: fragments keyId (s.makeControl keyId c).2 cs

lemma SameSource.makeControl {s s' : Session Conn} (h : SameSource s s') (keyId : UInt8)
    (c : Bytes) : (s'.makeControl keyId c).1 = (s.makeControl keyId c).1 ∧
      SameSource (s.makeControl keyId c).2 (s'.makeControl keyId c).2 := by
  refine ⟨?_, ?_, rfl, h.serverSessionId, h.clientSessionId⟩
  · unfold Session.makeControl Session.allocPacketId
    dsimp only
    rw [h.nextPacketId, h.pendingAcks, h.serverSessionId, h.clientSessionId]
  · exact congrArg (· + 1) h.nextPacketId

lemma SameSource.fragments {s s' : Session Conn} (h : SameSource s s') (keyId : UInt8)
    (cs : List Bytes) : Javs.fragments keyId s' cs = Javs.fragments keyId s cs := by
  induction cs generalizing s s' with
  | nil => rfl
  | cons c cs ih =>
    obtain ⟨hpkt, hs⟩ := h.makeControl keyId c
    rw [Javs.fragments, Javs.fragments, hpkt, ih hs]

lemma length_fragments (keyId : UInt8) (s : Session Conn) (cs : List Bytes) :
    (fragments keyId s cs).length = cs.length := by
  induction cs generalizing s with
  | nil => rfl
  | cons c cs ih => rw [fragments, List.length_cons, ih, List.length_cons]

lemma consecutive_fragments (keyId : UInt8) (s : Session Conn) (cs : List Bytes) :
    Consecutive s.nextPacketId (fragments keyId s cs) := by
  induction cs generalizing s with
  | nil => exact fun k hk => absurd hk (Nat.not_lt_zero k)
  | cons c cs ih => exact consecutive_cons rfl (ih _)

lemma payload_fragments (keyId : UInt8) (s : Session Conn) (cs : List Bytes) :
    (fragments keyId s cs).map ControlPacket.payload = cs := by
  induction cs generalizing s with
  | nil => rfl
  | cons c cs ih =>
    rw [fragments, List.map_cons, ih]
    rfl

lemma acks_fragments (keyId : UInt8) (s : Session Conn) (hs : s.pendingAcks = [])
    (cs : List Bytes) : ∀ pkt ∈ fragments keyId s cs, pkt.acks = [] := by
  induction cs generalizing s with
  | nil => exact fun pkt hp => absurd hp List.not_mem_nil
  | cons c cs ih =>
    intro pkt hp
    rcases List.mem_cons.mp hp with rfl | hp
    · exact hs
    · exact ih _ rfl pkt hp

lemma sendChunk_apply (ctx : Ctx) (keyId : UInt8) (c : Bytes) (w : World Conn) :
    ∃ r w', sendChunk S ctx keyId c w = (r, w') ∧
      SentFrom (w.sess.makeControl keyId c).2 w'.sess ∧ w'.env.sends = w.env.sends.tail ∧
      ((w.env.sends.head? = some false ∧ (∃ e, r = .error e) ∧ Progress S w w' []) ∨
       (w.env.sends.head? ≠ some false ∧ r = .ok () ∧
        Progress S w w' [(w.sess.makeControl keyId c).1])) := by
  obtain ⟨w₀, hw₀⟩ : ∃ w₀ : World Conn, w₀ = { w with
      sess := (w.sess.makeControl keyId c).2
      log := w.log ++ [.frag ctx (w.sess.makeControl keyId c).1] } := ⟨_, rfl⟩
  obtain ⟨r, w', h, hsrc, hsends, hcase⟩ := sendAndTrack_apply (S := S)
    (w.sess.makeControl keyId c).1 rfl w₀
  -- building the packet sends nothing yet, but takes the id and the acknowledgements
  have hbuilt : Progress S w w₀ [] := by
    rw [hw₀]
    exact ⟨(List.append_nil _).symm, ⟨_, rfl, rfl, .nil⟩, rfl⟩
  refine ⟨r, w', ?_, ?_, ?_, ?_⟩
  · rw [← h, sendChunk, get_bind, hw₀]
    rfl
  · rw [hw₀] at hsrc
    exact hsrc
  · rw [hsends, hw₀]
  · rw [hw₀] at hcase hbuilt
    exact hcase.imp (fun h => ⟨h.1, h.2.1, hbuilt.trans h.2.2⟩)
      fun h => ⟨h.1, h.2.1, hbuilt.trans h.2.2⟩

/-- The outcome of a flush loop over the pieces `cs`: as many of the packets are sent and
recorded as sends succeed before one fails, and one more is built if one fails. -/
structure Loop (S : VpnServer Conn) (keyId : UInt8) (cs : List Bytes) (w : World Conn)
    (r : Except Err Unit) (w' : World Conn) : Prop where
  progress : Progress S w w' ((fragments keyId w.sess cs).take (lucky w.env.sends cs.length))
  result : r = .ok () ↔ lucky w.env.sends cs.length = cs.length
  nextPacketId : w'.sess.nextPacketId = w.sess.nextPacketId +
    UInt32.ofNat (min (lucky w.env.sends cs.length + 1) cs.length)
  pendingAcks : w'.sess.pendingAcks = if cs.isEmpty then w.sess.pendingAcks else []

/-- **A flush loop.** -/
lemma loop_sendChunks (ctx : Ctx) (keyId : UInt8) (cs : List Bytes) (w : World Conn) :
    Loop S keyId cs w (forM cs (sendChunk S ctx keyId) w).1
      (forM cs (sendChunk S ctx keyId) w).2 := by
  induction cs generalizing w with
  | nil =>
    exact ⟨⟨by simp [fragments], ⟨[], by simp, rfl, .nil⟩, rfl⟩, by simp [lucky], by simp, rfl⟩
  | cons c cs ih =>
    obtain ⟨r₁, w₁, h₁, hfrom, hsends, hcase⟩ := sendChunk_apply (S := S) ctx keyId c w
    have hsrc := hfrom.sameSource
    rcases hcase with ⟨hf, ⟨e, rfl⟩, hp⟩ | ⟨hf, rfl, hp⟩
    · rw [List.forM_cons, bind_error h₁]
      refine ⟨?_, ?_, ?_, hsrc.pendingAcks⟩ <;> rw [List.length_cons, lucky_zero hf]
      · exact hp
      · simp
      · rw [hsrc.nextPacketId, Nat.min_eq_left (by omega)]
        rfl
    · obtain ⟨hp₂, hr₂, hnext, hacks⟩ := ih w₁
      rw [hsends] at hp₂ hr₂ hnext
      rw [hsrc.fragments] at hp₂
      rw [List.forM_cons, bind_ok h₁]
      refine ⟨?_, ?_, ?_, ?_⟩
      · rw [List.length_cons, lucky_succ hf]
        exact hp.trans hp₂
      · rw [List.length_cons, lucky_succ hf, hr₂]
        omega
      · rw [hnext, hsrc.nextPacketId, List.length_cons, lucky_succ hf, Nat.add_min_add_right,
          UInt32.ofNat_add, UInt32.add_comm (UInt32.ofNat _) (UInt32.ofNat 1), ← UInt32.add_assoc]
        rfl
      -- after the first packet no acknowledgements are left, so further ones take none
      · rw [hacks, hsrc.pendingAcks]
        split <;> rfl

section Loop

variable {w w' : World Conn} {r : Except Err Unit} {keyId : UInt8} {cs : List Bytes}

lemma Loop.drained {w₀ : World Conn} (h : Loop S keyId cs w₀ r w')
    (hsrc : SameSource w.sess w₀.sess) (hun : w₀.sess.unacked = w.sess.unacked)
    (henv : w₀.env = w.env) {ctx : Ctx} {out : Bytes}
    (hlog : w₀.log = w.log ++ [.drained ctx out]) : Loop S keyId cs w r w' := by
  have hp : Progress S w w₀ [] :=
    ⟨by rw [hun]; exact (List.append_nil _).symm, ⟨_, hlog, rfl, .nil⟩, by rw [henv]⟩
  obtain ⟨h1, h2, h3, h4⟩ := h
  rw [henv] at h1 h2 h3
  rw [hsrc.fragments] at h1
  rw [hsrc.nextPacketId] at h3
  rw [hsrc.pendingAcks] at h4
  exact ⟨hp.trans h1, h2, h3, h4⟩

lemma Loop.complete (h : Loop S keyId cs w r w') (hs : w.Succeeds cs.length) :
    r = .ok () ∧ Progress S w w' (fragments keyId w.sess cs) := by
  have hlucky := (lucky_eq_iff w.env.sends cs.length).mpr hs
  refine ⟨h.result.mpr hlucky, ?_⟩
  have hp := h.progress
  rwa [hlucky, List.take_of_length_le (length_fragments keyId w.sess cs).le] at hp

end Loop

end Send

/-! ### The two flushes -/

def mainOutput (S : VpnServer Conn) (w : World Conn) : Bytes :=
  (w.sess.tls.takeOutgoing S.rustls).2

def rekeyOutput (S : VpnServer Conn) (w : World Conn) : Bytes :=
  match w.sess.rekey with
  | none => []
  | some rk => (rk.tls.takeOutgoing S.rustls).2

/-- How many packets a flush of the main context sends, unless a send fails: one for each piece
of the output, or a bare acknowledgement. -/
def flushSends (S : VpnServer Conn) (w : World Conn) : ℕ :=
  if mainOutput S w = [] then if w.sess.pendingAcks = [] then 0 else 1
  else (chunks maxTlsPayloadPerControl (mainOutput S w)).length

/-- The same for the context of the rekey, which sends no bare acknowledgements. -/
def rekeyFlushSends (S : VpnServer Conn) (w : World Conn) : ℕ :=
  (chunks maxTlsPayloadPerControl (rekeyOutput S w)).length

section Flush

variable {S : VpnServer Conn} {w : World Conn}

lemma flushOutgoing_output (h : mainOutput S w ≠ []) :
    Loop S w.sess.activeKeyId (chunks maxTlsPayloadPerControl (mainOutput S w)) w
      (flushOutgoing S w).1 (flushOutgoing S w).2 := by
  have hout : (!(w.sess.tls.takeOutgoing S.rustls).2.isEmpty) = true := by
    simpa [mainOutput] using h
  rw [flushOutgoing, get_bind]
  dsimp only
  rw [put_bind, if_pos hout]
  exact (loop_sendChunks _ _ _ _).drained ⟨rfl, rfl, rfl, rfl⟩ rfl rfl rfl

lemma flushOutgoing_acks (h : mainOutput S w = []) (ha : w.sess.pendingAcks ≠ []) :
    ∃ r w' es, flushOutgoing S w = (r, w') ∧ w'.log = w.log ++ es ∧
      w'.sess.unacked = w.sess.unacked ∧ w'.sess.pendingAcks = [] ∧
      w'.sess.nextPacketId = w.sess.nextPacketId ∧
      ((w.env.sends.head? = some false ∧ (∃ e, r = .error e) ∧ Sends S es []) ∨
       (w.env.sends.head? ≠ some false ∧ r = .ok () ∧
        Sends S es [w.sess.makeAck w.sess.activeKeyId w.sess.pendingAcks])) := by
  have hout : ¬ (!(w.sess.tls.takeOutgoing S.rustls).2.isEmpty) = true := by
    simpa [mainOutput] using h
  have hacks : (!w.sess.pendingAcks.isEmpty) = true := by simpa using ha
  rw [flushOutgoing, get_bind]
  dsimp only
  rw [put_bind, if_neg hout, if_pos hacks, modify_bind]
  obtain ⟨wire, pid, henv, hw⟩ := wrapForWire_apply S
    (w.sess.makeAck w.sess.activeKeyId w.sess.pendingAcks)
    { w with
      sess := { w.sess with tls := (w.sess.tls.takeOutgoing S.rustls).1, pendingAcks := [] }
      log := w.log ++ [.drained .main (w.sess.tls.takeOutgoing S.rustls).2] ++
        [.ack (w.sess.makeAck w.sess.activeKeyId w.sess.pendingAcks)] }
  rw [bind_ok hw]
  -- the acknowledgements are cleared before the send, so a failure loses them
  rcases transportSend_apply wire _ with ⟨hf, e, hs⟩ | ⟨hf, hs⟩
  · rw [bind_error hs]
    exact ⟨_, _, _, rfl, List.append_assoc .., rfl, rfl, rfl,
      .inl ⟨hf, ⟨e, rfl⟩, rfl, .nil⟩⟩
  · rw [bind_ok hs]
    refine ⟨_, _, [.drained .main (w.sess.tls.takeOutgoing S.rustls).2,
      .ack (w.sess.makeAck w.sess.activeKeyId w.sess.pendingAcks), .wire wire,
      .sent (w.sess.makeAck w.sess.activeKeyId w.sess.pendingAcks)], rfl, ?_, rfl, rfl,
      rfl, .inr ⟨hf, rfl, rfl, .cons henv .nil⟩⟩
    simp

lemma flushOutgoing_idle (h : mainOutput S w = []) (ha : w.sess.pendingAcks = []) :
    flushOutgoing S w = (.ok (), { w with
      sess := { w.sess with tls := (w.sess.tls.takeOutgoing S.rustls).1 }
      log := w.log ++ [.drained .main (w.sess.tls.takeOutgoing S.rustls).2] }) := by
  have hout : ¬ (!(w.sess.tls.takeOutgoing S.rustls).2.isEmpty) = true := by
    simpa [mainOutput] using h
  have hacks : ¬ (!w.sess.pendingAcks.isEmpty) = true := by simpa using ha
  rw [flushOutgoing, get_bind]
  dsimp only
  rw [put_bind, if_neg hout, if_neg hacks]
  rfl

lemma chunks_ne_nil {b : Bytes} (h : b ≠ []) : chunks maxTlsPayloadPerControl b ≠ [] := by
  intro hc
  have hflat := flatten_chunks (by decide : 0 < maxTlsPayloadPerControl) b
  rw [hc] at hflat
  exact h hflat.symm

lemma fragments_output (keyId : UInt8) (s : Session Conn) (out : Bytes) :
    let pkts := fragments keyId s (chunks maxTlsPayloadPerControl out)
    (∀ pkt ∈ pkts, pkt.payload ≠ [] ∧ pkt.payload.length ≤ maxTlsPayloadPerControl) ∧
      pkts.flatMap ControlPacket.payload = out := by
  intro pkts
  have hmap := payload_fragments keyId s (chunks maxTlsPayloadPerControl out)
  constructor
  · intro pkt hpkt
    refine of_mem_chunks (b := out) (by decide) ?_
    rw [← hmap]
    exact List.mem_map_of_mem hpkt
  · rw [List.flatMap_def, hmap]
    exact flatten_chunks (by decide) out

lemma fragments_acks (keyId : UInt8) (s : Session Conn) {cs : List Bytes} (hcs : cs ≠ [])
    {a : UInt32} (ha : a ∈ s.pendingAcks) :
    ((fragments keyId s cs).filter fun pkt => pkt.acks.contains a).length = 1 := by
  obtain ⟨c, cs, rfl⟩ := List.exists_cons_of_ne_nil hcs
  have hfirst : (s.makeControl keyId c).1.acks.contains a = true := List.contains_iff_mem.mpr ha
  have hrest : (fragments keyId (s.makeControl keyId c).2 cs).filter
      (fun pkt => pkt.acks.contains a) = [] := by
    refine List.filter_eq_nil_iff.mpr fun pkt hp => ?_
    rw [acks_fragments keyId _ rfl cs pkt hp]
    simp
  rw [fragments, List.filter_cons, if_pos hfirst, hrest]
  rfl

/-- **What a flush emits.** If none of its sends fails, a flush of the main context sends every
acknowledgement in one packet, and the output in order in packets with consecutive ids, which it
records for retransmission. Without output it sends the acknowledgements alone. The datagrams it
hands to the transport are these packets in their envelopes. -/
theorem flushOutgoing_emits (S : VpnServer Conn) (w : World Conn)
    (h : w.Succeeds (flushSends S w)) :
    let w' := (flushOutgoing S w).2
    let pkts := sentPackets (w'.log.drop w.log.length)
    (flushOutgoing S w).1 = .ok () ∧ w'.sess.pendingAcks = [] ∧
    (∀ a ∈ w.sess.pendingAcks, (pkts.filter fun pkt => pkt.acks.contains a).length = 1) ∧
    (mainOutput S w ≠ [] → Consecutive w.sess.nextPacketId pkts ∧
      (∀ pkt ∈ pkts, pkt.payload ≠ [] ∧ pkt.payload.length ≤ maxTlsPayloadPerControl) ∧
      pkts.flatMap ControlPacket.payload = mainOutput S w ∧
      w'.sess.unacked = w.sess.unacked ++ pkts.map (·.record w.env.now)) ∧
    (mainOutput S w = [] → w'.sess.unacked = w.sess.unacked ∧
      (w.sess.pendingAcks ≠ [] → ∃ ack, pkts = [ack] ∧ ack.op = .ackV1 ∧ ack.packetId = none ∧
        ack.acks = w.sess.pendingAcks)) ∧
    List.Forall₂ S.Envelops pkts (wires (w'.log.drop w.log.length)) := by
  intro w' pkts
  by_cases hout : mainOutput S w = []
  · by_cases hacks : w.sess.pendingAcks = []
    · have hidle := flushOutgoing_idle hout hacks
      have hsince : w'.log.drop w.log.length = [.drained .main (mainOutput S w)] := by
        simp only [w', hidle, List.drop_left, mainOutput]
      refine ⟨by rw [hidle], by simp only [w', hidle, hacks], ?_, fun hne => absurd hout hne,
        fun _ => ⟨by simp only [w', hidle], fun hne => absurd hacks hne⟩, ?_⟩
      · rw [hacks]
        exact fun a ha => absurd ha List.not_mem_nil
      · simp only [pkts, hsince]
        exact .nil
    -- a bare acknowledgement: it bears no packet id, and is not recorded
    · obtain ⟨r, v, es, hflush, hlog, hun, hpend, -, ⟨hf, -⟩ | ⟨-, hr, hsends⟩⟩ :=
        flushOutgoing_acks hout hacks
      · rw [flushSends, if_pos hout, if_neg hacks, World.succeeds_one] at h
        exact absurd hf h
      · have hw' : w' = v := by simp only [w', hflush]
        have hsince : w'.log.drop w.log.length = es := by rw [hw', hlog, List.drop_left]
        have hpkts : pkts = [w.sess.makeAck w.sess.activeKeyId w.sess.pendingAcks] := by
          simp only [pkts, hsince, hsends.sent]
        rw [hsince, hpkts, hw', hflush]
        refine ⟨hr, hpend, fun a ha => ?_, fun hne => absurd hout hne,
          fun _ => ⟨hun, fun _ => ⟨_, rfl, rfl, rfl, rfl⟩⟩, hsends.wires⟩
        have hmem : (w.sess.makeAck w.sess.activeKeyId w.sess.pendingAcks).acks.contains a = true :=
          List.contains_iff_mem.mpr ha
        rw [List.filter_cons, if_pos hmem]
        rfl
  -- with output the acknowledgements ride on the first fragment
  · have hloop := flushOutgoing_output hout
    rw [flushSends, if_neg hout] at h
    obtain ⟨hok, hun, ⟨es, hlog, hsends⟩, -⟩ := hloop.complete h
    have hsince : w'.log.drop w.log.length = es := by simp only [w', hlog, List.drop_left]
    have hpkts : pkts = fragments w.sess.activeKeyId w.sess
        (chunks maxTlsPayloadPerControl (mainOutput S w)) := by
      simp only [pkts, hsince, hsends.sent]
    have hne := chunks_ne_nil hout
    obtain ⟨hsizes, hbytes⟩ := fragments_output w.sess.activeKeyId w.sess (mainOutput S w)
    rw [hsince, hpkts]
    refine ⟨hok, ?_, fun a ha => fragments_acks _ _ hne ha, fun _ => ⟨?_, hsizes, hbytes, hun⟩,
      fun hnil => absurd hnil hout, hsends.wires⟩
    · rw [hloop.pendingAcks, if_neg (by simpa using hne)]
    · exact consecutive_fragments _ _ _

/-- An output of two pieces. -/
theorem flushOutgoing_emits_plain :
    let out : Bytes := List.replicate 1101 5
    let w : World Plain := { started plainServer plainOpening with
      sess := { (started plainServer plainOpening).sess with
        tls := ⟨{ output := out }, []⟩
        pendingAcks := [7] } }
    let pkts := sentPackets ((flushOutgoing plainServer w).2.log.drop w.log.length)
    mainOutput plainServer w = out ∧ pkts.length = 2 ∧
      pkts.flatMap ControlPacket.payload = out ∧
      List.Forall₂ plainServer.Envelops pkts
        (wires ((flushOutgoing plainServer w).2.log.drop w.log.length)) := by
  intro out w pkts
  have hout : mainOutput plainServer w = out := by decide +kernel
  obtain ⟨-, -, -, hsome, -, hwires⟩ := flushOutgoing_emits plainServer w (by decide +kernel)
  have h := hsome (by rw [hout]; exact List.cons_ne_nil _ _)
  exact ⟨hout, by decide +kernel, h.2.2.1.trans hout, hwires⟩

/-! ### Nothing is lost -/

/-- Nothing is lost from `w` to `w'`, where `out` was taken out of a TLS context: the packets
newly recorded carry all of it and all packet ids used up, and every acknowledgement that was
pending still is, or is in a packet that was sent. -/
structure NothingLost (out : Bytes) (w w' : World Conn) : Prop where
  recorded : ∃ pkts : List ControlPacket,
    w'.sess.unacked = w.sess.unacked ++ pkts.map (·.record w.env.now) ∧
    pkts.flatMap ControlPacket.payload = out ∧ Consecutive w.sess.nextPacketId pkts ∧
    w'.sess.nextPacketId = w.sess.nextPacketId + UInt32.ofNat pkts.length
  acks : ∀ a ∈ w.sess.pendingAcks, a ∈ w'.sess.pendingAcks ∨
    ∃ pkt ∈ sentPackets (w'.log.drop w.log.length), a ∈ pkt.acks

lemma Loop.nothingLost_iff {w' : World Conn} {r : Except Err Unit} {keyId : UInt8} {out : Bytes}
    (h : Loop S keyId (chunks maxTlsPayloadPerControl out) w r w') (hout : out ≠ []) :
    NothingLost out w w' ↔ w.Succeeds (chunks maxTlsPayloadPerControl out).length := by
  have hne := chunks_ne_nil hout
  constructor
  · rintro ⟨⟨pkts, hun, -, -, hnext⟩, -⟩
    rw [World.Succeeds, ← lucky_eq_iff]
    by_contra hlt
    have hle := lucky_le w.env.sends (chunks maxTlsPayloadPerControl out).length
    have hlen := congrArg List.length (h.progress.unacked.symm.trans hun)
    rw [List.length_append, List.length_append, List.length_map, List.length_map,
      List.length_take, length_fragments] at hlen
    have hid := h.nextPacketId.symm.trans hnext
    rw [Nat.min_eq_left (by omega), UInt32.add_right_inj, show pkts.length =
      lucky w.env.sends (chunks maxTlsPayloadPerControl out).length by omega,
      UInt32.ofNat_add] at hid
    simp at hid
  · intro hs
    obtain ⟨-, hun, ⟨es, hlog, hsends⟩, -⟩ := h.complete hs
    have hlucky := (lucky_eq_iff w.env.sends _).mpr hs
    refine ⟨⟨_, hun, (fragments_output keyId w.sess out).2, consecutive_fragments _ _ _, ?_⟩,
      fun a ha => .inr ?_⟩
    · rw [h.nextPacketId, hlucky, length_fragments, Nat.min_eq_right (by omega)]
    · rw [hlog, List.drop_left, hsends.sent]
      obtain ⟨pkt, hpkt⟩ := List.length_eq_one_iff.mp (fragments_acks keyId w.sess hne ha)
      have hmem := List.mem_filter.mp (hpkt ▸ List.mem_singleton_self pkt)
      exact ⟨pkt, hmem.1, List.contains_iff_mem.mp hmem.2⟩

lemma flushRekeyOutgoing_output (h : rekeyOutput S w ≠ []) :
    ∃ keyId, Loop S keyId (chunks maxTlsPayloadPerControl (rekeyOutput S w)) w
      (flushRekeyOutgoing S w).1 (flushRekeyOutgoing S w).2 := by
  rw [flushRekeyOutgoing_eq, get_bind]
  unfold rekeyOutput at h ⊢
  rcases hrk : w.sess.rekey with _ | rk
  · rw [hrk] at h
    exact absurd rfl h
  · rw [hrk] at h
    dsimp only at h ⊢
    rw [put_bind, if_neg (by simpa using h)]
    exact ⟨rk.keyId, (loop_sendChunks _ _ _ _).drained ⟨rfl, rfl, rfl, rfl⟩ rfl rfl rfl⟩

lemma flushRekeyOutgoing_idle (h : rekeyOutput S w = []) :
    (flushRekeyOutgoing S w).1 = .ok () ∧ SameSource w.sess (flushRekeyOutgoing S w).2.sess ∧
      (flushRekeyOutgoing S w).2.sess.unacked = w.sess.unacked ∧
      ∃ es, (flushRekeyOutgoing S w).2.log = w.log ++ es ∧ sentPackets es = [] := by
  rw [flushRekeyOutgoing_eq, get_bind]
  unfold rekeyOutput at h
  rcases hrk : w.sess.rekey with _ | rk
  · exact ⟨rfl, ⟨rfl, rfl, rfl, rfl⟩, rfl, [], (List.append_nil _).symm, rfl⟩
  · rw [hrk] at h
    dsimp only at h ⊢
    rw [put_bind, if_pos (by simpa using h)]
    exact ⟨rfl, ⟨rfl, rfl, rfl, rfl⟩, rfl, _, rfl, rfl⟩

lemma nothingLost_of_same {w' : World Conn} (hun : w'.sess.unacked = w.sess.unacked)
    (hpend : w'.sess.pendingAcks = w.sess.pendingAcks)
    (hnext : w'.sess.nextPacketId = w.sess.nextPacketId) : NothingLost [] w w' :=
  ⟨⟨[], by simp [hun], rfl, fun k hk => absurd hk (Nat.not_lt_zero k), by simp [hnext]⟩,
    fun _ ha => .inl (hpend ▸ ha)⟩

lemma flushOutgoing_nothingLost (S : VpnServer Conn) (w : World Conn) :
    NothingLost (mainOutput S w) w (flushOutgoing S w).2 ↔ w.Succeeds (flushSends S w) := by
  unfold flushSends
  by_cases hout : mainOutput S w = []
  · rw [if_pos hout, hout]
    by_cases hacks : w.sess.pendingAcks = []
    · rw [if_pos hacks, flushOutgoing_idle hout hacks]
      exact ⟨fun _ => by simp [World.Succeeds], fun _ => nothingLost_of_same rfl rfl rfl⟩
    · rw [if_neg hacks, World.succeeds_one]
      obtain ⟨r, v, es, hflush, hlog, hun, hpend, hnext, hcase⟩ := flushOutgoing_acks hout hacks
      rw [hflush]
      have hsince : v.log.drop w.log.length = es := by rw [hlog, List.drop_left]
      rcases hcase with ⟨hf, -, hsends⟩ | ⟨hf, -, hsends⟩
      · refine ⟨fun hno => ?_, fun hne => absurd hf hne⟩
        obtain ⟨a, ha⟩ := List.exists_mem_of_ne_nil _ hacks
        rcases hno.acks a ha with ha' | ⟨pkt, hpkt, -⟩
        · rw [hpend] at ha'
          exact absurd ha' List.not_mem_nil
        · rw [hsince, hsends.sent] at hpkt
          exact absurd hpkt List.not_mem_nil
      · refine ⟨fun _ => hf, fun _ => ⟨⟨[], by simp [hun], rfl,
          fun k hk => absurd hk (Nat.not_lt_zero k), by simp [hnext]⟩, fun a ha => .inr ?_⟩⟩
        rw [hsince, hsends.sent]
        exact ⟨_, List.mem_singleton_self _, ha⟩
  · rw [if_neg hout]
    exact (flushOutgoing_output hout).nothingLost_iff hout

lemma flushRekeyOutgoing_nothingLost (S : VpnServer Conn) (w : World Conn) :
    NothingLost (rekeyOutput S w) w (flushRekeyOutgoing S w).2 ↔
      w.Succeeds (rekeyFlushSends S w) := by
  unfold rekeyFlushSends
  by_cases hout : rekeyOutput S w = []
  · obtain ⟨-, hsrc, hun, -⟩ := flushRekeyOutgoing_idle hout
    rw [hout]
    exact ⟨fun _ => by simp [World.Succeeds, chunks, maxTlsPayloadPerControl],
      fun _ => nothingLost_of_same hun hsrc.pendingAcks hsrc.nextPacketId⟩
  · obtain ⟨keyId, hloop⟩ := flushRekeyOutgoing_output hout
    exact hloop.nothingLost_iff hout

lemma sendAndTrack_recorded (w : World Conn) {pkt : ControlPacket} (hid : pkt.packetId.isSome) :
    ((sendAndTrack S pkt w).2.sess.unacked = w.sess.unacked ++ [pkt.record w.env.now] ∧
      pkt ∈ sentPackets ((sendAndTrack S pkt w).2.log.drop w.log.length)) ↔ w.Succeeds 1 := by
  obtain ⟨r, v, h, -, -, hcase⟩ := sendAndTrack_apply (S := S) pkt hid w
  rw [h, World.succeeds_one]
  rcases hcase with ⟨hf, -, hp⟩ | ⟨hf, -, hp⟩ <;> obtain ⟨es, hlog, hsends⟩ := hp.log <;>
    rw [hlog, List.drop_left, hsends.sent]
  · exact ⟨fun h => absurd h.2 List.not_mem_nil, fun h => absurd hf h⟩
  · exact ⟨fun _ => hf, fun _ => ⟨hp.unacked, List.mem_singleton_self pkt⟩⟩

/-- **Nothing is lost exactly if no send fails.** This is so for both flushes, with as many sends
as there are packets to send, and for every packet that is sent on its own. -/
theorem sends_lose_nothing (S : VpnServer Conn) (w : World Conn) :
    (NothingLost (mainOutput S w) w (flushOutgoing S w).2 ↔ w.Succeeds (flushSends S w)) ∧
    (NothingLost (rekeyOutput S w) w (flushRekeyOutgoing S w).2 ↔
      w.Succeeds (rekeyFlushSends S w)) ∧
    ∀ pkt : ControlPacket, pkt.packetId.isSome →
      (((sendAndTrack S pkt w).2.sess.unacked = w.sess.unacked ++ [pkt.record w.env.now] ∧
        pkt ∈ sentPackets ((sendAndTrack S pkt w).2.log.drop w.log.length)) ↔ w.Succeeds 1) :=
  ⟨flushOutgoing_nothingLost S w, flushRekeyOutgoing_nothingLost S w,
    fun _ hid => sendAndTrack_recorded w hid⟩

end Flush

def Effect.drainsMain : Effect → Bool
  | .drained .main out => !out.isEmpty
  | _ => false

def brokenExchange : Event Plain :=
  .control { plainEnv 1 with sends := [false] } (clientPacket .controlV1 0 1 (clientKm2 3)) none

/-- The reply is out of the TLS context and in no packet kept; its packet id 1 is used up, and
the acknowledgement of the client's packet 1 is neither pending nor sent. -/
theorem failed_send_loses :
    let w := run (step plainServer plainAddr) (started plainServer plainOpening) [brokenExchange]
    w.sess.state = .pushPending ∧
      w.log.any Effect.drainsMain = true ∧ w.sess.tls.conn.output = [] ∧
      w.sess.unacked.map Unacked.packetId = [0] ∧ w.sess.nextPacketId = 2 ∧
      w.sess.receivedPids = [1] ∧ w.sess.pendingAcks = [] ∧
      ∀ pkt ∈ sentPackets w.log, 1 ∉ pkt.acks := by
  decide +kernel

end Javs
