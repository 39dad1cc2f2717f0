import Javs.Transcript

/-!
What a session's control packets look like.

Over any run the packets a session builds bear its own id and, with acknowledgements, the
client's; those with a packet id are numbered from 0 without a gap; and only pieces of TLS output
have a payload, of bounded size. With the envelope around it a datagram of the control channel
is therefore bounded too, but for the acknowledgements it carries.
-/

namespace Javs

open Lib Bytes

variable {Conn : Type} {S : VpnServer Conn}

/-- A control packet of the session `serverSid` to the client `clientSid`. -/
structure ControlPacket.Shaped (serverSid clientSid : SessionId) (p : ControlPacket) : Prop where
  sessionId : p.sessionId = serverSid
  remote : p.remoteSessionId = if p.acks = [] then none else some clientSid
  op : p.op = .controlV1 ∨ p.op = .ackV1 ∨ p.op = .controlHardResetServerV2 ∨
    p.op = .controlSoftResetV1
  id : p.packetId = none ↔ p.op = .ackV1
  bare : p.op ≠ .controlV1 → p.payload = []
  payload : p.payload.length ≤ maxTlsPayloadPerControl

def packetIds (said : List Effect) : List UInt32 :=
  (packets said).filterMap ControlPacket.packetId

/-- The packets so far are packets of the session, numbered from 0. -/
structure OwnPackets (serverSid clientSid : SessionId) (a : Outward) : Prop where
  server : a.serverSid = serverSid
  client : a.clientSid = clientSid
  shaped : ∀ p ∈ packets a.said, p.Shaped serverSid clientSid
  ids : packetIds a.said = (List.range (packetIds a.said).length).map UInt32.ofNat
  next : a.nextPid = UInt32.ofNat (packetIds a.said).length

lemma packets_wires (said : List Effect) (bs : List Bytes) :
    packets (said ++ bs.map Effect.wire) = packets said := by
  have hnone : (bs.map Effect.wire).filterMap Effect.packet? = [] := by
    rw [List.filterMap_map]
    exact List.filterMap_eq_nil_iff.mpr fun _ _ => rfl
  rw [packets, List.filterMap_append, hnone, List.append_nil]
  rfl

namespace OwnPackets

variable {serverSid clientSid : SessionId} {a b : Outward}

lemma silent (h : OwnPackets serverSid clientSid a) (hs : b.serverSid = a.serverSid)
    (hc : b.clientSid = a.clientSid) (hn : b.nextPid = a.nextPid)
    (hp : packets b.said = packets a.said) : OwnPackets serverSid clientSid b := by
  have hids : packetIds b.said = packetIds a.said := congrArg (List.filterMap _) hp
  exact ⟨hs.trans h.server, hc.trans h.client, hp ▸ h.shaped, hids ▸ h.ids, by
    rw [hn, hids]
    exact h.next⟩

lemma build (h : OwnPackets serverSid clientSid a) {p : ControlPacket}
    (hp : packets b.said = packets a.said ++ [p]) (hshape : p.Shaped a.serverSid a.clientSid)
    (hs : b.serverSid = a.serverSid) (hc : b.clientSid = a.clientSid)
    (hid : p.packetId = none ∧ b.nextPid = a.nextPid ∨
      p.packetId = some a.nextPid ∧ b.nextPid = a.nextPid + 1) :
    OwnPackets serverSid clientSid b := by
  have hids : packetIds b.said = packetIds a.said ++ p.packetId.toList := by
    rw [packetIds, hp, List.filterMap_append]
    cases h : p.packetId <;> simp [packetIds, h]
  refine ⟨hs.trans h.server, hc.trans h.client, fun q hq => ?_, ?_, ?_⟩
  · rw [hp] at hq
    rcases List.mem_append.mp hq with hq | hq
    · exact h.shaped q hq
    · rw [List.mem_singleton.mp hq, ← h.server, ← h.client]
      exact hshape
  -- a packet with an id has the next one; a bare acknowledgement has none
  · rcases hid with ⟨hid, -⟩ | ⟨hid, -⟩ <;> rw [hids, hid]
    · simpa using h.ids
    · rw [h.next, Option.toList_some, List.length_append, List.length_singleton, List.range_succ,
        List.map_append, ← h.ids]
      rfl
  · rcases hid with ⟨hid, hn⟩ | ⟨hid, hn⟩ <;> rw [hids, hid, hn, h.next]
    · simp
    · rw [Option.toList_some, List.length_append, List.length_singleton, UInt32.ofNat_add]
      rfl

end OwnPackets

lemma invariant_ownPackets (serverSid clientSid : SessionId) :
    Outward.Invariant (OwnPackets serverSid clientSid) where
  clock _ _ _ _ _ h := h.silent rfl rfl rfl rfl
  noted a ctrl h := by
    unfold Outward.noted
    split <;> dsimp only
    · split <;> exact h.silent rfl rfl rfl rfl
    · exact h.silent rfl rfl rfl rfl
  draft a heard pkt d h hd := by
    have hp := hd.said.1
    cases hd with
    | @fragment ctx keyId chunk hc =>
      refine h.build hp
        ⟨rfl, ?_, .inl rfl, by simp [Outward.fragment], fun hop => absurd rfl hop, hc⟩
        rfl rfl (.inr ⟨rfl, rfl⟩)
      simp [Outward.fragment]
    | ack keyId hpend =>
      refine h.build hp ⟨rfl, ?_, .inr (.inl rfl), by simp [Outward.bareAck], fun _ => rfl,
        Nat.zero_le _⟩ rfl rfl (.inl ⟨rfl, rfl⟩)
      simp [Outward.bareAck, hpend]
    | answer hop keyId =>
      refine h.build hp ⟨rfl, ?_, .inr (.inr hop), ?_, fun _ => rfl, Nat.zero_le _⟩ rfl rfl
        (.inr ⟨rfl, rfl⟩)
      · simp [Outward.answer]
      · rcases hop with rfl | rfl <;> simp [Outward.answer]
    | request keyId =>
      exact h.build hp ⟨rfl, rfl, .inr (.inr (.inr rfl)), by simp [Outward.request], fun _ => rfl,
        Nat.zero_le _⟩ rfl rfl (.inr ⟨rfl, rfl⟩)
  sent _ _ _ bs h := h.silent rfl rfl rfl (packets_wires _ bs)
  rekeyed _ _ _ _ h := h.silent rfl rfl rfl (packets_tell rfl _)

/-! ### Sizes -/

def VpnServer.overhead (S : VpnServer Conn) : ℕ := if S.enveloped then 40 else 0

lemma ControlPacket.length_encode_eq (p : ControlPacket) :
    p.encode.length = 10 + 4 * p.acks.length + (if p.acks = [] then 0 else 8) +
      (if p.packetId = none then 0 else 4) + p.payload.length := by
  have hacks : (p.acks.flatMap putU32).length = 4 * p.acks.length := by
    simp [List.length_flatMap, length_putU32, Nat.mul_comm]
  have hremote : (if p.acks.isEmpty then [] else putU64 (p.remoteSessionId.getD 0) : Bytes).length =
      if p.acks = [] then 0 else 8 := by
    rcases p.acks <;> simp
  rcases hid : p.packetId with _ | pid <;>
    simp only [encode, hid, List.length_append, List.length_singleton, length_putU64,
      length_putU32, List.length_nil, hacks, hremote, if_true, reduceCtorEq, if_false]

lemma Primitives.MacsAndStreams.length_aesCtr {p : Primitives} (hp : p.MacsAndStreams)
    (k iv d : Bytes) : (p.aesCtr k iv d).length = d.length := by
  obtain ⟨keystream, hctr⟩ := hp.ctr
  rw [hctr, List.length_mapIdx]

lemma length_envelope (hp : S.prims.MacsAndStreams) {inner b : Bytes} {pid ts : UInt32}
    (hlen : 9 ≤ inner.length) (h : S.envelope inner pid ts = .ok b) :
    b.length = inner.length + S.overhead := by
  obtain ⟨op, sid, body, hsid, rfl⟩ := exists_header hlen
  -- the envelopes differ in their fields, but both add forty bytes
  obtain ⟨cfg, poolEnd, poolEndV6, tlsCrypt, tlsAuth, prims, rustls⟩ := S
  rcases tlsCrypt with _ | tc
  · rcases tlsAuth with _ | ta
    · rw [← Except.ok.inj h]
      rfl
    · have hb := Except.ok.inj ((TlsAuthKey.wrap_cons _ hsid pid ts body ta).symm.trans h)
      have htag : (TlsAuthKey.computeHmac prims ta.outKey op sid pid ts body).length = 32 :=
        hp.hmac _ _
      rw [← hb]
      simp only [TlsAuthKey.wire, List.length_cons, List.length_append, length_putU32, htag, hsid]
      show _ = _ + 40
      omega
  · have hb := Except.ok.inj ((TlsCryptKey.wrap_cons _ hsid pid ts body tc).symm.trans h)
    have htag (m : Bytes) : (prims.hmacSha256 tc.encHmacKey m).length = 32 := hp.hmac _ m
    have hbody (iv : Bytes) : (prims.aesCtr tc.encCipherKey iv body).length = body.length :=
      hp.length_aesCtr _ iv body
    rw [← hb]
    simp only [TlsCryptKey.header, List.length_cons, List.length_append, length_putU32, htag, hbody,
      hsid]
    show _ = _ + 40
    omega

/-- **The control packets of a session.** After any events the packets a session has built are
its own, numbered from 0 without a gap; and a control datagram is one of them in the envelope,
of at most 1122 bytes beside the envelope and four for each acknowledgement. -/
theorem control_packets_shaped (hp : S.prims.MacsAndStreams) (addr : SocketAddr)
    (o : Opening Conn) (es : List (Event Conn)) :
    (∀ p ∈ packets (run (step S addr) (started S o) es).log,
      p.Shaped o.env.serverSid o.ctrl.sessionId) ∧
    packetIds (run (step S addr) (started S o) es).log =
      (List.range (packetIds (run (step S addr) (started S o) es).log).length).map UInt32.ofNat ∧
    ∀ b ∈ controlWires (run (step S addr) (started S o) es).log,
      ∃ p ∈ packets (run (step S addr) (started S o) es).log,
        (∃ pid ts, S.envelope p.encode pid ts = .ok b) ∧
        b.length = p.encode.length + S.overhead ∧
        b.length ≤ 1122 + 4 * p.acks.length + S.overhead := by
  obtain ⟨us, hus, -⟩ := session_transcript S addr o es
  have hown := (invariant_ownPackets o.env.serverSid o.ctrl.sessionId).session S addr o
    ⟨rfl, rfl, nofun, rfl, rfl⟩ es
  generalize run (step S addr) (started S o) es = w at hus hown ⊢
  have hshaped : ∀ p ∈ packets w.log, p.Shaped o.env.serverSid o.ctrl.sessionId := by
    have h := hown.shaped
    rwa [World.outward, packets_speech] at h
  refine ⟨hshaped, ?_, fun b hb => ?_⟩
  · have h := hown.ids
    rwa [packetIds, World.outward, packets_speech] at h
  -- a datagram of the log belongs to an utterance, and that to a packet that was built
  · have hsent : b ∈ us.filterMap Utterance.sent := by
      rw [← hus.wires]
      exact (controlWires_speech w.log).symm ▸ hb
    obtain ⟨u, hu, hub⟩ := List.mem_filterMap.mp hsent
    obtain ⟨k, hk⟩ := List.getElem?_of_mem hu
    obtain ⟨pid, ts, hwrap, -⟩ := hus.enveloped k u hk b hub
    obtain ⟨p, hmem, hinner⟩ := hus.built u hu
    have hmem' : p ∈ packets w.log := by rwa [World.outward, packets_speech] at hmem
    rw [hinner] at hwrap
    have hlen := length_envelope hp p.length_encode hwrap
    have hpayload : p.payload.length ≤ 1100 := (hshaped p hmem').payload
    refine ⟨p, hmem', ⟨pid, ts, hwrap⟩, hlen, ?_⟩
    rw [hlen, p.length_encode_eq]
    split <;> split <;> omega

/-- A session that is established with one packet: the greeting and the reply bear its ids. -/
theorem control_packets_shaped_establishing :
    (∀ p ∈ packets (run (step plainServer plainAddr) (started plainServer plainOpening)
      [establishing]).log, p.Shaped 7 5) ∧
    packetIds (run (step plainServer plainAddr) (started plainServer plainOpening)
      [establishing]).log = [0, 1] :=
  ⟨(control_packets_shaped (S := plainServer) macsAndStreams_plainPrims plainAddr plainOpening
    [establishing]).1, by decide +kernel⟩

end Javs
