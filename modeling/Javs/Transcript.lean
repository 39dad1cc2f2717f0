import Javs.Outward
import Javs.Receive
import Javs.Listener

/-!
The control channel as the peer hears it.

Every control packet goes out in an envelope with an id of its own, a retransmission under a new
one, and a packet whose send failed leaves a gap. The *transcript* of a session lists its
utterances in the order in which they are wrapped; utterance number `k` bears the envelope id
`k + 1`. So as long as the ids do not run out they increase along the transcript, and a peer with
the mirrored keys and a replay window takes every datagram that reaches it in the order of the ids,
however many are lost in between. The retransmission task wraps under the session's lock and sends
after it has released it, so that this need not be the order in which the datagrams leave.
-/

namespace Javs

open Lib Bytes

variable {Conn : Type} {S : VpnServer Conn} {w : World Conn}

/-! ### Envelope ids -/

/-- The id of envelope number `k`: from 1 up to the largest one, and then from 1 again. -/
def envelopeId (k : ℕ) : UInt32 := UInt32.ofNat (k % (2 ^ 32 - 1) + 1)

lemma toNat_envelopeId (k : ℕ) : (envelopeId k).toNat = k % (2 ^ 32 - 1) + 1 := by
  have hlt : k % (2 ^ 32 - 1) < 2 ^ 32 - 1 := Nat.mod_lt _ (by decide)
  rw [envelopeId, UInt32.toNat_ofNat']
  omega

lemma nextId_envelopeId (h : S.enveloped = true) (k : ℕ) :
    S.nextId (envelopeId k) = envelopeId (k + 1) := by
  have hk := toNat_envelopeId k
  have hk1 := toNat_envelopeId (k + 1)
  have hmod := Nat.add_mod k 1 (2 ^ 32 - 1)
  have hlt : k % (2 ^ 32 - 1) < 2 ^ 32 - 1 := Nat.mod_lt _ (by decide)
  rw [VpnServer.nextId, if_pos h]
  apply UInt32.toNat_inj.mp
  split
  · rename_i hmax
    rw [hmax] at hk
    have htop : (0xFFFFFFFF : UInt32).toNat = 2 ^ 32 - 1 := rfl
    rw [hk1]
    show 1 = _
    omega
  · rename_i hmax
    have hne : (envelopeId k).toNat ≠ 2 ^ 32 - 1 := fun e =>
      hmax (UInt32.toNat_inj.mp e)
    rw [UInt32.toNat_add, hk1, hk]
    show (_ + 1) % 2 ^ 32 = _
    omega

lemma envelopeId_lt {j k : ℕ} (h : j < k) (hk : k < 2 ^ 32 - 1) : envelopeId j < envelopeId k := by
  rw [UInt32.lt_iff_toNat_lt, toNat_envelopeId, toNat_envelopeId, Nat.mod_eq_of_lt hk,
    Nat.mod_eq_of_lt (h.trans hk)]
  omega

/-! ### Datagrams of the control channel -/

def isDataWire (b : Bytes) : Bool :=
  b.head?.any fun x : UInt8 => (OpCode.fromU8 (x >>> 3)).toOption.any OpCode.isData

def Effect.datagram? : Effect → Option Bytes
  | .wire b => if isDataWire b then none else some b
  | _ => none

def controlWires (log : List Effect) : List Bytes := log.filterMap Effect.datagram?

lemma filterMap_speech {α : Type} {f : Effect → Option α}
    (hf : ∀ e : Effect, e.isSpeech = false → f e = none) (log : List Effect) :
    (speech log).filterMap f = log.filterMap f := by
  rw [speech, List.filterMap_filter]
  refine List.filterMap_congr fun e _ => ?_
  cases h : e.isSpeech
  · simp [hf e h]
  · simp

lemma packets_speech (log : List Effect) : packets (speech log) = packets log :=
  filterMap_speech (fun e he => by cases e <;> first | rfl | cases he) log

lemma controlWires_speech (log : List Effect) : controlWires (speech log) = controlWires log :=
  filterMap_speech (fun e he => by cases e <;> first | rfl | cases he) log

lemma isDataWire_cons (op : OpCode) (keyId : UInt8) (rest : Bytes) :
    isDataWire ((op.toU8 <<< 3 ||| keyId &&& 7) :: rest) = op.isData := by
  have hop : OpCode.fromU8 ((op.toU8 <<< 3 ||| keyId &&& 7) >>> 3) = .ok op :=
    OpCode.fromU8_eq_ok.mpr (pack_high op.toU8_lt)
  rw [isDataWire, List.head?_cons, Option.any_some, hop]
  rfl

lemma isDataWire_envelope {pkt : ControlPacket} {pid ts : UInt32} {b : Bytes}
    (h : S.envelope pkt.encode pid ts = .ok b) : isDataWire b = pkt.op.isData := by
  obtain ⟨sid, body, hsid, henc⟩ : ∃ sid body : Bytes, sid.length = 8 ∧
      pkt.encode = (pkt.op.toU8 <<< 3 ||| pkt.keyId &&& 7) :: (sid ++ body) := by
    refine ⟨putU64 pkt.sessionId, ?body, length_putU64 _, ?_⟩
    rotate_left
    · simp only [ControlPacket.encode, List.append_assoc, List.singleton_append]
      rfl
  rw [henc] at h
  unfold VpnServer.envelope at h
  split at h
  · rw [TlsCryptKey.wrap_cons _ hsid] at h
    rw [← Except.ok.inj h]
    exact isDataWire_cons _ _ _
  · rw [TlsAuthKey.wrap_cons _ hsid] at h
    rw [← Except.ok.inj h]
    exact isDataWire_cons _ _ _
  · rw [← Except.ok.inj h]
    exact isDataWire_cons _ _ _

lemma isDataWire_dataHeader (peerId : UInt32) (keyId : UInt8) (pid : UInt32) (ct : Bytes) :
    isDataWire (Session.dataHeader peerId keyId pid ++ ct) = true :=
  isDataWire_cons .dataV2 keyId _

/-! ### Transcripts -/

/-- `us` are the utterances of a session so far: the datagrams of the control channel are theirs,
utterance number `k` went out in an envelope with the id number `k`, and the bytes of each, like
those of the packets kept for retransmission, are those of a packet the session has built. -/
structure Transcript (S : VpnServer Conn) (us : List Utterance) (a : Outward) : Prop where
  counter : S.enveloped = true → a.counter = envelopeId us.length
  wires : controlWires a.said = us.filterMap Utterance.sent
  enveloped : ∀ k u, us[k]? = some u → ∀ b ∈ u.sent, ∃ pid ts,
    S.envelope u.inner pid ts = .ok b ∧ (S.enveloped = true → pid = envelopeId k)
  built : ∀ u ∈ us, ∃ pkt ∈ packets a.said, u.inner = pkt.encode
  queued : ∀ q ∈ a.queue, ∃ pkt ∈ packets a.said, q.encoded = pkt.encode
  control : ∀ pkt ∈ packets a.said, pkt.op.isData = false

lemma getElem?_snoc {α : Type} {l : List α} {x y : α} {k : ℕ} (h : (l ++ [x])[k]? = some y) :
    l[k]? = some y ∨ k = l.length ∧ y = x := by
  rcases Nat.lt_trichotomy k l.length with hk | hk | hk
  · exact .inl (by rwa [List.getElem?_append_left hk] at h)
  · subst hk
    exact .inr ⟨rfl, by simpa using h.symm⟩
  · rw [List.getElem?_eq_none (by simp; omega)] at h
    cases h

namespace Transcript

variable {us : List Utterance} {a b : Outward} {heard : Option UInt32}

lemma utter (h : Transcript S us a) {inner : Bytes} {sent : Option Bytes}
    (hs : ∀ x ∈ sent, S.envelope inner a.counter a.unixTime = .ok x)
    (hc : b.counter = S.nextId a.counter) {new : List ControlPacket}
    (hp : packets b.said = packets a.said ++ new) (hnew : ∀ pkt ∈ new, pkt.op.isData = false)
    (hw : controlWires b.said = controlWires a.said ++ sent.toList)
    (hb : ∃ pkt ∈ packets b.said, inner = pkt.encode)
    (hq : ∀ q ∈ b.queue, q ∈ a.queue ∨ q.encoded = inner) :
    Transcript S (us ++ [⟨inner, sent⟩]) b where
  counter he := by
    rw [hc, h.counter he, nextId_envelopeId he, List.length_append, List.length_singleton]
  wires := by
    rw [hw, h.wires, List.filterMap_append]
    rcases sent <;> rfl
  enveloped k u hk x hx := by
    rcases getElem?_snoc hk with hk | ⟨rfl, rfl⟩
    · exact h.enveloped k u hk x hx
    · exact ⟨a.counter, a.unixTime, hs x hx, h.counter⟩
  built u hu := by
    rcases List.mem_append.mp hu with hu | hu
    · obtain ⟨pkt, hpkt, e⟩ := h.built u hu
      exact ⟨pkt, hp ▸ List.mem_append_left _ hpkt, e⟩
    · rw [List.mem_singleton.mp hu]
      exact hb
  queued q hmem := by
    rcases hq q hmem with hold | hmine
    · obtain ⟨pkt, hpkt, e⟩ := h.queued q hold
      exact ⟨pkt, hp ▸ List.mem_append_left _ hpkt, e⟩
    · rw [hmine]
      exact hb
  control pkt hpkt := by
    rw [hp] at hpkt
    rcases List.mem_append.mp hpkt with hpkt | hpkt
    · exact h.control pkt hpkt
    · exact hnew pkt hpkt

lemma silent (h : Transcript S us a) (hc : b.counter = a.counter)
    (hp : packets b.said = packets a.said) (hw : controlWires b.said = controlWires a.said)
    (hq : ∀ q ∈ b.queue, ∃ q' ∈ a.queue, q.encoded = q'.encoded) : Transcript S us b where
  counter he := hc.trans (h.counter he)
  wires := hw.trans h.wires
  enveloped := h.enveloped
  built u hu := hp ▸ h.built u hu
  queued q hmem := by
    obtain ⟨q', hq', e⟩ := hq q hmem
    rw [hp, e]
    exact h.queued q' hq'
  control pkt hpkt := h.control pkt (hp ▸ hpkt)

end Transcript

section Utterances

variable {us vs : List Utterance} {a b : Outward} {heard : Option UInt32}

lemma Drafts.said {pkt : ControlPacket} (h : Drafts heard a pkt b) :
    packets b.said = packets a.said ++ [pkt] ∧ controlWires b.said = controlWires a.said ∧
      b.queue = a.queue ∧ pkt.op.isData = false := by
  cases h with
  | answer hop keyId =>
    refine ⟨packets_snoc _ _, ?_, rfl, ?_⟩
    · simp [Outward.tell, controlWires, Effect.datagram?]
    · rcases hop with rfl | rfl <;> rfl
  | _ =>
    refine ⟨packets_snoc _ _, ?_, rfl, rfl⟩
    simp [Outward.tell, controlWires, Effect.datagram?]

variable (S a) in
lemma said_utter (pkt : ControlPacket) {sent : Option Bytes}
    (h : ∀ x ∈ sent, isDataWire x = false) :
    packets (a.utter S pkt sent).said = packets a.said ∧
      controlWires (a.utter S pkt sent).said = controlWires a.said ++ sent.toList ∧
      ∀ q ∈ (a.utter S pkt sent).queue, q ∈ a.queue ∨ q.encoded = pkt.encode := by
  rcases sent with _ | x
  · exact ⟨rfl, (List.append_nil _).symm, fun q hq => .inl hq⟩
  · refine ⟨packets_tell rfl _, ?_, fun q hq => ?_⟩
    · simp [Outward.utter, controlWires, Effect.datagram?, h x rfl]
    · rcases List.mem_append.mp hq with hq | hq
      · exact .inl hq
      · obtain ⟨p, -, rfl⟩ := Option.map_eq_some_iff.mp (Option.mem_toList.mp hq)
        exact .inr rfl

lemma Speaks.transcript (h : Transcript S us a) (hs : Speaks S heard a vs b) :
    Transcript S (us ++ vs) b ∧ (packets b.said).length = (packets a.said).length + vs.length := by
  induction hs with
  | silent => exact ⟨by simpa using h, rfl⟩
  | @speak vs c d pkt hc hd sent hsent ih =>
    obtain ⟨ih, hlen⟩ := ih
    obtain ⟨hp, hw, hq, hop⟩ := hd.said
    have hctl : ∀ x ∈ sent, isDataWire x = false := fun x hx =>
      (isDataWire_envelope (hsent x hx)).trans hop
    obtain ⟨hp', hw', hq'⟩ := said_utter S d pkt hctl
    have hpackets : packets (d.utter S pkt sent).said = packets c.said ++ [pkt] := hp'.trans hp
    rw [← List.append_assoc]
    constructor
    · refine ih.utter hsent ?_ hpackets (fun p hmem => List.mem_singleton.mp hmem ▸ hop)
        (by rw [hw', hw]) ⟨pkt, by simp [hpackets], rfl⟩ (hq ▸ hq')
      rw [← hd.counter.1]
      rcases sent <;> rfl
    · rw [hpackets]
      simp only [List.length_append, List.length_singleton, hlen]
      omega
  | @renewed vs c _ keyId before after ih =>
    have hp := packets_tell (e := .rekeyed keyId before after) rfl c.said
    refine ⟨ih.1.silent rfl hp ?_ fun q hq => ⟨q, hq, rfl⟩, (congrArg List.length hp).trans ih.2⟩
    simp [Outward.tell, controlWires, Effect.datagram?]

lemma Resends.transcript (h : Transcript S us a) (hr : Resends S a vs b)
    (hin : ∀ u ∈ vs, ∃ pkt ∈ packets a.said, u.inner = pkt.encode) :
    Transcript S (us ++ vs) b ∧ packets b.said = packets a.said := by
  induction hr generalizing us with
  | nil a => exact ⟨by simpa using h, rfl⟩
  | @cons a b vs inner sent hsent _ ih =>
    obtain ⟨pkt, hpkt, rfl⟩ : ∃ pkt ∈ packets a.said, inner = pkt.encode :=
      hin _ List.mem_cons_self
    have hctl : ∀ x ∈ sent, isDataWire x = false := fun x hx =>
      (isDataWire_envelope (hsent x hx)).trans (h.control pkt hpkt)
    have hsaid : packets (a.resent S sent).said = packets a.said := by
      rcases sent with _ | x
      · exact congrArg packets (List.append_nil _)
      · exact packets_tell rfl _
    have hw : controlWires (a.resent S sent).said = controlWires a.said ++ sent.toList := by
      rcases sent with _ | x
      · simp [Outward.resent]
      · simp [Outward.resent, controlWires, Effect.datagram?, hctl x rfl]
    have hnext := h.utter (b := a.resent S sent) hsent rfl (hsaid.trans (List.append_nil _).symm)
      (by simp) hw ⟨pkt, hsaid ▸ hpkt, rfl⟩ fun q hq => .inl hq
    have hlater := ih hnext fun u hu => hsaid ▸ hin u (List.mem_cons_of_mem _ hu)
    rw [List.append_assoc] at hlater
    exact ⟨hlater.1, hlater.2.trans hsaid⟩

end Utterances

/-! ### Runs -/

def resends (w : World Conn) : Event Conn → ℕ
  | .retransmit env => (w.sess.staleUnacked env.now controlBaseRto).2.length
  | _ => 0

/-- The number of envelopes used over a run that starts with `w`: one for each packet built, and
one for each packet sent again. -/
def envelopesUsed (S : VpnServer Conn) (addr : SocketAddr) (w : World Conn)
    (es : List (Event Conn)) : ℕ :=
  (packets (run (step S addr) w es).log).length +
    ((trace (step S addr) w es).map fun x => resends x.1 x.2).sum

section Runs

variable {us : List Utterance} {addr : SocketAddr}

lemma encoded_staleEntry (now baseRto : ℕ) (u : Unacked) :
    (Session.staleEntry now baseRto u).1.encoded = u.encoded ∧
      ∀ b ∈ (Session.staleEntry now baseRto u).2, b = u.encoded := by
  unfold Session.staleEntry
  dsimp only
  split
  · exact ⟨rfl, fun b hb => (Option.mem_some.mp hb).symm⟩
  · exact ⟨rfl, nofun⟩

lemma encoded_staleUnacked (s : Session Conn) (now baseRto : ℕ) :
    (∀ q ∈ (s.staleUnacked now baseRto).1.unacked, ∃ u ∈ s.unacked, q.encoded = u.encoded) ∧
      ∀ b ∈ (s.staleUnacked now baseRto).2, ∃ u ∈ s.unacked, b = u.encoded := by
  unfold Session.staleUnacked
  dsimp only
  constructor
  · intro q hq
    obtain ⟨x, hx, rfl⟩ := List.mem_map.mp hq
    obtain ⟨u, hu, rfl⟩ := List.mem_map.mp hx
    exact ⟨u, List.mem_of_mem_filter hu, (encoded_staleEntry now baseRto u).1⟩
  · intro b hb
    obtain ⟨x, hx, hbx⟩ := List.mem_filterMap.mp hb
    obtain ⟨u, hu, rfl⟩ := List.mem_map.mp hx
    exact ⟨u, List.mem_of_mem_filter hu, (encoded_staleEntry now baseRto u).2 b hbx⟩

lemma Transcript.at (h : Transcript S us w.outward) (env : Env Conn) :
    Transcript S us (w.outward.at env) :=
  h.silent rfl rfl rfl fun q hq => ⟨q, hq, rfl⟩

lemma queue_noted (a : Outward) (ctrl : ControlPacket) :
    (a.noted ctrl).queue = a.queue.filter fun u => !ctrl.acks.contains u.packetId := by
  unfold Outward.noted
  rcases ctrl.packetId with _ | pid
  · rfl
  · dsimp only
    split <;> rfl

variable (addr) in
/-- **One event** continues the transcript, by one utterance for each packet it builds or sends
again. -/
lemma transcript_step (h : Transcript S us w.outward) (e : Event Conn) :
    ∃ vs, Transcript S (us ++ vs) (step S addr w e).outward ∧
      (packets (step S addr w e).outward.said).length + resends w e =
        (packets w.outward.said).length + vs.length := by
  obtain ⟨vs, hvs⟩ := step_shows S addr w e
  refine ⟨vs, ?_⟩
  generalize (step S addr w e).outward = b at hvs
  cases hvs with
  | idle hc hr =>
    cases e with
    | control env ctrl replayPid => exact absurd rfl (hc env ctrl replayPid)
    | retransmit env => exact absurd rfl (hr env)
    | shared tab => exact ⟨(List.append_nil us).symm ▸ h, rfl⟩
    | _ env => exact ⟨(List.append_nil us).symm ▸ h.at env, rfl⟩
  | refused he _ =>
    subst he
    refine ⟨?_, rfl⟩
    rw [List.append_nil]
    exact h.silent rfl rfl rfl fun q hq => ⟨q, hq, rfl⟩
  | @heard env ctrl replayPid vs b he _ hs =>
    subst he
    have hsaid : ((w.outward.at env).noted ctrl).said = w.outward.said ∧
        ((w.outward.at env).noted ctrl).counter = w.outward.counter := by
      unfold Outward.noted
      split <;> dsimp only
      · split <;> exact ⟨rfl, rfl⟩
      · exact ⟨rfl, rfl⟩
    have hnoted : Transcript S us ((w.outward.at env).noted ctrl) := by
      refine h.silent hsaid.2 (by rw [hsaid.1]) (by rw [hsaid.1]) fun q hq => ?_
      rw [queue_noted] at hq
      exact ⟨q, List.mem_of_mem_filter hq, rfl⟩
    obtain ⟨htr, hlen⟩ := hs.transcript hnoted
    rw [hsaid.1] at hlen
    exact ⟨htr, hlen⟩
  | opened he =>
    subst he
    refine ⟨?_, rfl⟩
    rw [List.append_nil]
    exact h.silent rfl rfl rfl fun q hq => ⟨q, hq, rfl⟩
  | @sealed env he keyId pid ct =>
    have hdata := isDataWire_dataHeader w.sess.peerId keyId pid ct
    have hres : resends w e = 0 := by rcases he with ⟨ipPkt, rfl⟩ | rfl <;> rfl
    have hp := packets_tell (e := .wire (Session.dataHeader w.sess.peerId keyId pid ++ ct)) rfl
      w.outward.said
    refine ⟨?_, ?_⟩
    · rw [List.append_nil]
      refine h.silent rfl hp ?_ fun q hq => ⟨q, hq, rfl⟩
      simp [Outward.tell, Outward.at, controlWires, Effect.datagram?, hdata]
    · rw [hres]
      exact congrArg List.length hp
  | @requested env vs b he _ _ _ hs =>
    subst he
    have hbegun : Transcript S us { w.outward.at env with lastRekeyAt := env.now } :=
      h.silent rfl rfl rfl fun q hq => ⟨q, hq, rfl⟩
    obtain ⟨htr, hlen⟩ := hs.transcript hbegun
    exact ⟨htr, hlen⟩
  | @resent env vs b he hus hr =>
    subst he
    obtain ⟨hkept, hstale⟩ := encoded_staleUnacked w.sess env.now controlBaseRto
    have hscan : Transcript S us { w.outward.at env with
        queue := (w.sess.staleUnacked env.now controlBaseRto).1.unacked } :=
      h.silent rfl rfl rfl hkept
    -- what is sent again was queued, hence built before
    obtain ⟨htr, hp⟩ := hr.transcript hscan fun u hu => by
      obtain ⟨q, hq, e⟩ := hstale u.inner (hus ▸ List.mem_map_of_mem hu)
      rw [e]
      exact h.queued q hq
    have hlen : vs.length = (w.sess.staleUnacked env.now controlBaseRto).2.length := by
      rw [← hus, List.length_map]
    exact ⟨htr, by rw [hp, hlen]; rfl⟩
  | @restarted env vs b he hs =>
    subst he
    obtain ⟨htr, hlen⟩ := hs.transcript (h.at env)
    exact ⟨htr, hlen⟩

variable (addr) in
lemma transcript_run (h : Transcript S us w.outward) (es : List (Event Conn)) :
    ∃ vs, Transcript S (us ++ vs) (run (step S addr) w es).outward ∧
      envelopesUsed S addr w es = (packets w.log).length + vs.length := by
  induction es generalizing w us with
  | nil => exact ⟨[], (List.append_nil us).symm ▸ h, rfl⟩
  | cons e es ih =>
    obtain ⟨vs, hvs, hone⟩ := transcript_step addr h e
    obtain ⟨vs', hvs', hrest⟩ := ih hvs
    refine ⟨vs ++ vs', List.append_assoc us vs vs' ▸ hvs', ?_⟩
    unfold envelopesUsed at hrest ⊢
    rw [run_cons, trace_cons, List.map_cons, List.sum_cons, List.length_append]
    have hbuilt : (packets (step S addr w e).log).length + resends w e =
        (packets w.log).length + vs.length := by
      rw [← packets_speech (step S addr w e).log, ← packets_speech w.log]
      exact hone
    dsimp only
    omega

/-- **Every session has a transcript**, with an utterance for each envelope it has used. -/
lemma session_transcript (S : VpnServer Conn) (addr : SocketAddr) (o : Opening Conn)
    (es : List (Event Conn)) :
    ∃ us, Transcript S us (run (step S addr) (started S o) es).outward ∧
      us.length = envelopesUsed S addr (started S o) es := by
  have hopening : Transcript S [] (.opening o) := ⟨fun _ => rfl, rfl, nofun, nofun, nofun, nofun⟩
  obtain ⟨us, hus⟩ := started_speaks S o
  obtain ⟨hstart, hlen⟩ := hus.transcript hopening
  obtain ⟨vs, hvs, hused⟩ := transcript_run addr hstart es
  refine ⟨[] ++ us ++ vs, hvs, ?_⟩
  have hbuilt : (packets (started S o).log).length = us.length := by
    rw [← packets_speech]
    exact hlen.trans (Nat.zero_add _)
  rw [hused, hbuilt]
  simp

end Runs

/-! ### The peer -/

/-- The other end of the control channel: the same keys with in and out swapped. -/
def VpnServer.mirrored (S : VpnServer Conn) : VpnServer Conn :=
  { S with
    tlsCrypt := S.tlsCrypt.map TlsCryptKey.mirror
    tlsAuth := S.tlsAuth.map TlsAuthKey.mirror }

lemma unwrap_mirrored (hp : S.prims.MacsAndStreams) (henv : S.enveloped = true) {inner b : Bytes}
    {pid ts : UInt32} (hlen : 9 ≤ inner.length) (h : S.envelope inner pid ts = .ok b) :
    unwrapControl S.mirrored b = .ok (some inner, some pid) := by
  obtain ⟨cfg, poolEnd, poolEndV6, tlsCrypt, tlsAuth, prims, rustls⟩ := S
  rcases tlsCrypt with _ | tc
  · rcases tlsAuth with _ | ta
    · cases henv
    · obtain ⟨b', hb', hun⟩ := (TlsAuthKey.inverse prims hp ta.mirror).complete inner pid ts hlen
      obtain rfl : b' = b := Except.ok.inj (hb'.symm.trans h)
      simp only [unwrapControl, VpnServer.mirrored, Option.map_none, Option.map_some, hun]
      rfl
  · obtain ⟨b', hb', hun⟩ := (TlsCryptKey.inverse prims hp tc.mirror).complete inner pid ts hlen
    obtain rfl : b' = b := Except.ok.inj (hb'.symm.trans h)
    simp only [unwrapControl, VpnServer.mirrored, Option.map_some, hun]
    rfl

/-- How the end with the keys of `S` reads a control datagram: the packet inside, and the id of
the envelope. -/
def VpnServer.readControl (S : VpnServer Conn) (d : Bytes) : Option (Bytes × UInt32) :=
  match unwrapControl S d with
  | .ok (some inner, some pid) => some (inner, pid)
  | _ => none

/-- The datagrams of a transcript, each with the packet inside and the id of the envelope. -/
def datagrams (us : List Utterance) : List (Bytes × Bytes × UInt32) :=
  us.zipIdx.filterMap fun x => x.1.sent.map fun b => (b, x.1.inner, envelopeId x.2)

section Datagrams

variable {us : List Utterance}

lemma datagrams_snoc (us : List Utterance) (u : Utterance) :
    datagrams (us ++ [u]) =
      datagrams us ++ (u.sent.map fun b => (b, u.inner, envelopeId us.length)).toList := by
  unfold datagrams
  rw [List.zipIdx_append, List.filterMap_append]
  rcases hs : u.sent <;> simp [hs]

lemma map_datagrams (us : List Utterance) :
    (datagrams us).map Prod.fst = us.filterMap Utterance.sent := by
  induction us using List.reverseRecOn with
  | nil => rfl
  | append_singleton us u ih =>
    rw [datagrams_snoc, List.map_append, ih, List.filterMap_append]
    rcases hs : u.sent <;> simp [hs]

lemma mem_datagrams {t : Bytes × Bytes × UInt32} (h : t ∈ datagrams us) :
    ∃ k u, us[k]? = some u ∧ t.1 ∈ u.sent ∧ t.2 = (u.inner, envelopeId k) := by
  obtain ⟨⟨u, k⟩, hx, ht⟩ := List.mem_filterMap.mp h
  obtain ⟨b, hb, rfl⟩ := Option.map_eq_some_iff.mp ht
  exact ⟨k, u, List.mem_zipIdx_iff_getElem?.mp hx, hb, rfl⟩

lemma datagrams_increasing (hlen : us.length ≤ 2 ^ 32 - 1) :
    (datagrams us).Pairwise fun t t' => t.2.2 < t'.2.2 := by
  induction us using List.reverseRecOn with
  | nil => exact .nil
  | append_singleton us u ih =>
    rw [List.length_append, List.length_singleton] at hlen
    rw [datagrams_snoc, List.pairwise_append]
    refine ⟨ih (by omega), ?_, fun t ht t' ht' => ?_⟩
    · rcases u.sent <;> simp
    · obtain ⟨k, v, hk, -, e⟩ := mem_datagrams ht
      obtain ⟨b, -, rfl⟩ := Option.map_eq_some_iff.mp (Option.mem_toList.mp ht')
      obtain ⟨hk, -⟩ := List.getElem?_eq_some_iff.mp hk
      rw [e]
      exact envelopeId_lt hk (by omega)

lemma Transcript.unwrap {a : Outward} (h : Transcript S us a) (hp : S.prims.MacsAndStreams)
    (henv : S.enveloped = true) {t : Bytes × Bytes × UInt32} (ht : t ∈ datagrams us) :
    S.mirrored.readControl t.1 = some t.2 ∧ ∃ pkt ∈ packets a.said, t.2.1 = pkt.encode := by
  obtain ⟨k, u, hk, hb, e⟩ := mem_datagrams ht
  obtain ⟨pkt, hpkt, hinner⟩ := h.built u (List.mem_of_getElem? hk)
  obtain ⟨pid, ts, hwrap, hpid⟩ := h.enveloped k u hk t.1 hb
  rw [e]
  refine ⟨?_, pkt, hpkt, hinner⟩
  rw [← hpid henv, VpnServer.readControl,
    unwrap_mirrored hp henv (hinner ▸ pkt.length_encode) hwrap]

end Datagrams

/-- **The peer can follow the control channel.** With an envelope configured and its ids not used
up, the peer takes every control datagram of a session, first transmissions and retransmissions
alike, that reaches it in the order of the envelope ids, whatever is lost in between; and in
whatever order and however often they reach it, it takes none twice. What it takes is each time a
packet the session has built. -/
theorem peer_follows_control (hp : S.prims.MacsAndStreams) (henv : S.enveloped = true)
    (addr : SocketAddr) (o : Opening Conn) (es : List (Event Conn))
    (hused : envelopesUsed S addr (started S o) es ≤ 2 ^ 32 - 1) :
    (∀ ds, ds.Sublist (controlWires (run (step S addr) (started S o) es).log) →
      (run (Listener.hear S.mirrored.readControl) {} ds).taken.map Prod.fst = ds) ∧
    ∀ ds ⊆ controlWires (run (step S addr) (started S o) es).log,
      ((run (Listener.hear S.mirrored.readControl) {} ds).taken.map Prod.fst).Nodup ∧
      ∀ t ∈ (run (Listener.hear S.mirrored.readControl) {} ds).taken,
        ∃ pkt ∈ packets (run (step S addr) (started S o) es).log, t.2.1 = pkt.encode := by
  obtain ⟨us, hus, hlen⟩ := session_transcript S addr o es
  have hwires : controlWires (run (step S addr) (started S o) es).log =
      (datagrams us).map Prod.fst := by
    rw [map_datagrams, ← hus.wires]
    exact (controlWires_speech _).symm
  have hpos : ∀ t ∈ datagrams us, 0 < t.2.2 := fun t ht => by
    obtain ⟨k, u, -, -, e⟩ := mem_datagrams ht
    rw [e, UInt32.lt_iff_toNat_lt, toNat_envelopeId]
    exact Nat.succ_pos _
  -- the ids of the envelopes rise by one, from one
  obtain ⟨hinOrder, honce⟩ := Listener.follows (fun t ht => (hus.unwrap hp henv ht).1)
    (datagrams_increasing (hlen ▸ hused)) hpos
  rw [hwires]
  constructor
  · intro ds hds
    obtain ⟨ts, hts, rfl⟩ := List.sublist_map_iff.mp hds
    rw [hinOrder ts hts]
  · intro ds hds
    obtain ⟨hnodup, hmine⟩ := honce ds hds
    refine ⟨hnodup, fun t ht => ?_⟩
    simpa only [World.outward, packets_speech] using (hus.unwrap hp henv (hmine t ht)).2

def cryptServer : VpnServer Plain := { plainServer with tlsCrypt := some ⟨[1], [2], [3], [4]⟩ }

/-- A session whose greeting is sent again: the peer takes both datagrams. -/
theorem peer_follows_control_resent :
    let es : List (Event Plain) := [.retransmit { plainEnv 1 with now := 2000 }]
    let ds := controlWires
      (run (step cryptServer plainAddr) (started cryptServer plainOpening) es).log
    ds.length = 2 ∧
      (run (Listener.hear cryptServer.mirrored.readControl) {} ds).taken.map Prod.fst = ds :=
  ⟨by decide +kernel, (peer_follows_control (S := cryptServer) macsAndStreams_plainPrims rfl
    plainAddr plainOpening [.retransmit { plainEnv 1 with now := 2000 }] (by decide +kernel)).1 _
      (List.Sublist.refl _)⟩

end Javs
