import Javs.Bounds
import Javs.Legible
import Javs.Stamp

/-!
What a session says on its control channel.

The *outward* side of a session is what its control packets are made of: the two session ids,
the next packet id, the acknowledgements owed, the next id of the envelope, and the retransmit
queue; beside it stands the record of the packets built and the bytes sent. The handlers between
the arrival of a packet and the flush that ends it do not touch this side. All that does is an
*utterance*: a packet is drafted, put into an envelope and handed to the transport, which may
fail. What an event does to the outward side is said once, as a sequence of utterances, with the
end of a rekey among them.
-/

namespace Javs

open Lib Proc Bytes

variable {Conn α : Type} {S : VpnServer Conn} {w w' : World Conn}

/-! ### The outward side -/

structure Outward where
  serverSid : SessionId
  clientSid : SessionId
  /-- Packet id of the next control packet. -/
  nextPid : UInt32
  pending : List UInt32
  received : List UInt32
  /-- Id of the next envelope. -/
  counter : UInt32
  queue : List Unacked
  lastSeen : ℕ
  lastRekeyAt : ℕ
  now : ℕ
  unixTime : UInt32
  /-- The packets built, the bytes sent and the rekeys completed, in order. -/
  said : List Effect

/-- A control packet is built, bytes go to the wire, or a rekey completes. -/
def Effect.isSpeech : Effect → Bool
  | .frag .. | .ack _ | .reset _ | .wire _ | .rekeyed .. => true
  | _ => false

def speech (log : List Effect) : List Effect := log.filter Effect.isSpeech

def World.outward (w : World Conn) : Outward where
  serverSid := w.sess.serverSessionId
  clientSid := w.sess.clientSessionId
  nextPid := w.sess.nextPacketId
  pending := w.sess.pendingAcks
  received := w.sess.receivedPids
  counter := w.sess.tlsAuthPidOut
  queue := w.sess.unacked
  lastSeen := w.sess.lastSeen
  lastRekeyAt := w.sess.lastRekeyAt
  now := w.env.now
  unixTime := w.env.unixTime
  said := speech w.log

lemma speech_append (log log' : List Effect) :
    speech (log ++ log') = speech log ++ speech log' :=
  List.filter_append ..

lemma outward_tell {e : Effect} (he : e.isSpeech = false)
    (hw : World.outward { w' with log := w.log } = w.outward) (hl : w'.log = w.log ++ [e]) :
    w'.outward = w.outward := by
  have hsaid : speech w'.log = speech w.log := by
    rw [hl, speech_append, speech, speech, List.filter_singleton, he]
    exact List.append_nil _
  rw [← hw]
  unfold World.outward
  dsimp only
  rw [hsaid]

lemma outward_silent {e : Effect} (he : e.isSpeech = false) (v : World Conn) :
    World.outward { v with log := v.log ++ [e] } = v.outward :=
  outward_tell he rfl rfl

/-- Bytes are taken out of a TLS context, a control packet is built or handed to the transport, or
packets of the session are acknowledged. -/
def Effect.isPostal : Effect → Bool
  | .drained .. | .frag .. | .reset _ | .sent _ | .acked _ => true
  | _ => false

def post (log : List Effect) : List Effect := log.filter Effect.isPostal

lemma post_append (log log' : List Effect) : post (log ++ log') = post log ++ post log' :=
  List.filter_append ..

/-- All that is left alone between the arrival of a packet and the flush that ends it. -/
def World.frame (w : World Conn) : Outward × List Effect := (w.outward, post w.log)

lemma frame_tell {e : Effect} (hs : e.isSpeech = false) (hp : e.isPostal = false)
    (hw : World.outward { w' with log := w.log } = w.outward) (hl : w'.log = w.log ++ [e]) :
    w'.frame = w.frame := by
  have hpost : post w'.log = post w.log := by
    rw [hl, post_append, post, post, List.filter_singleton, hp]
    exact List.append_nil _
  rw [World.frame, World.frame, outward_tell hs hw hl, hpost]

/-- The control plane behind the main connection leaves a rekey alone, too. -/
def World.aside (w : World Conn) : (Outward × List Effect) × Option (RekeyTrack Conn) :=
  (w.frame, w.sess.rekey)

lemma aside_tell {e : Effect} (hs : e.isSpeech = false) (hp : e.isPostal = false)
    (hw : World.aside { w' with log := w.log } = w.aside) (hl : w'.log = w.log ++ [e]) :
    w'.aside = w.aside := by
  obtain ⟨hframe, hrekey⟩ := Prod.mk.inj hw
  exact Prod.ext (frame_tell hs hp (congrArg Prod.fst hframe) hl) hrekey

lemma frame_of_aside {m : M Conn α} (h : Keeps World.aside m) : Keeps World.frame m :=
  fun w => congrArg Prod.fst (h w)

lemma frame_context (msg : String) (x : Res α) :
    Keeps World.frame (M.context msg x : M Conn α) := by
  rcases x with (_ | _) | a
  · exact keeps_throw _
  · exact keeps_ofExcept _
  · exact keeps_ofExcept _

/-! ### Handlers that say nothing -/

section Handlers

variable (S)

lemma aside_sendPlaintext (data : Bytes) : Keeps World.aside (sendPlaintext S data) := by
  refine keeps_get_bind fun w => keepsAt_bind (keepsAt_set rfl) fun _ => ?_
  split
  · exact keeps_pure _
  · exact keeps_throw _

lemma frame_driveRekeyControlPlane : Keeps World.frame (driveRekeyControlPlane S) := by
  rw [driveRekeyControlPlane_eq]
  refine keeps_get_bind fun w => ?_
  rcases w.sess.rekey with _ | rk
  · exact keeps_pure _ w
  dsimp only
  split
  · exact keeps_pure _ w
  refine keepsAt_bind (keeps_ofExcept _ w) fun pop => ?_
  rcases pop with ⟨km, n⟩ | _
  · refine keeps_bind (keeps_modify fun _ => frame_tell rfl rfl rfl rfl) fun _ => ?_
    refine keeps_bind (keeps_modify fun _ => rfl) fun _ => ?_
    split
    · exact keeps_modify fun _ => frame_tell rfl rfl rfl rfl
    · exact keeps_throw _
  · exact keeps_pure _

lemma aside_assignIp (addr : SocketAddr) (cc : Option ClientConfig) :
    Keeps World.aside (assignIp S addr cc) := by
  have halloc : Keeps World.aside (allocateIp S) := by
    refine keeps_get_bind fun w => ?_
    dsimp only
    split
    · exact keeps_throw _ w
    · exact keepsAt_bind (keepsAt_set rfl) fun _ => keeps_pure _
  have hchoose : Keeps World.aside (chooseIp S cc) := by
    refine keeps_get_bind fun w => ?_
    split
    · split
      · exact keeps_throw _ w
      · exact keeps_pure _ w
    · exact keeps_throw _ w
    · exact halloc w
  exact keeps_bind hchoose fun _ =>
    keeps_bind (keeps_modify fun _ => aside_tell rfl rfl rfl rfl) fun _ => keeps_pure _

lemma aside_assignIpV6 (addr : SocketAddr) : Keeps World.aside (assignIpV6 S addr) := by
  have halloc : Keeps World.aside (allocateIpV6 S) := by
    refine keeps_get_bind fun w => ?_
    split
    · exact keeps_pure _ w
    · exact keeps_throw _ w
    · split
      · exact keeps_throw _ w
      · exact keepsAt_bind (keepsAt_set rfl) fun _ => keeps_pure _
  refine keeps_bind halloc fun ip6 => ?_
  rcases ip6 with _ | v6
  · exact keeps_pure _
  · exact keeps_bind (keeps_modify fun _ => aside_tell rfl rfl rfl rfl) fun _ => keeps_pure _

lemma aside_handlePushRequest (addr : SocketAddr) :
    Keeps World.aside (handlePushRequest S addr) := by
  refine keeps_get_bind fun w => keepsAt_bind (aside_assignIp S addr _ w) fun ip => ?_
  refine keeps_bind (aside_assignIpV6 S addr) fun ip6 => ?_
  exact keeps_bind (aside_sendPlaintext S _) fun _ => keeps_modify fun _ => rfl

lemma aside_handleKeyMethod2 (km : ClientKeyMethod2) :
    Keeps World.aside (handleKeyMethod2 S km) := by
  refine keeps_bind (keeps_modify fun _ => rfl) fun _ => keeps_bind ?_ fun _ => ?_
  · refine keeps_get_bind fun w => ?_
    rcases w.sess.prfSlot S.prims 0 with e | slot
    · exact keeps_throw e w
    · exact keepsAt_set (aside_tell rfl rfl rfl rfl)
  · refine keeps_get_bind fun w => keepsAt_bind (aside_sendPlaintext S _ w) fun _ => ?_
    exact keeps_modify fun _ => rfl

lemma aside_drainPlaintext (n : ℕ) : Keeps World.aside (drainPlaintext n : M Conn Unit) := by
  refine keeps_get_bind fun w => ?_
  rcases w.sess.tls.drainTo n with e | tls
  · exact keeps_throw e w
  · exact keepsAt_set rfl

lemma aside_driveRound (addr : SocketAddr) : Keeps World.aside (driveRound S addr) := by
  refine keeps_get_bind fun w => ?_
  split
  · refine keepsAt_bind (keeps_ofExcept _ w) fun pop => ?_
    rcases pop with ⟨km, n⟩ | _
    · refine keeps_bind (aside_drainPlaintext n) fun _ => ?_
      exact keeps_bind (aside_handleKeyMethod2 S km) fun _ => keeps_pure _
    · exact keeps_pure _
  · split
    · exact keeps_pure _ w
    · refine keepsAt_bind (aside_drainPlaintext _ w) fun _ => ?_
      split
      · exact keeps_bind (aside_handlePushRequest S addr) fun _ => keeps_pure _
      · exact keeps_pure _
  · split
    · exact keeps_pure _ w
    · refine keepsAt_bind (aside_drainPlaintext _ w) fun _ => ?_
      split
      · exact keeps_bind (keeps_modify fun _ => rfl) fun _ => keeps_pure _
      · exact keeps_pure _
  · exact keeps_pure _ w

lemma aside_driveControlPlane (addr : SocketAddr) :
    Keeps World.aside (driveControlPlane S addr) := by
  have hloop (fuel : ℕ) : Keeps World.aside (driveLoop S addr fuel) := by
    induction fuel with
    | zero => exact keeps_pure _
    | succ fuel ih =>
      refine keeps_bind (aside_driveRound S addr) fun more => ?_
      split
      · exact ih
      · exact keeps_pure _
  exact keeps_get_bind fun w => hloop _ w

lemma frame_sendPlaintext (data : Bytes) : Keeps World.frame (sendPlaintext S data) :=
  frame_of_aside (aside_sendPlaintext S data)

lemma frame_driveControlPlane (addr : SocketAddr) :
    Keeps World.frame (driveControlPlane S addr) :=
  frame_of_aside (aside_driveControlPlane S addr)

end Handlers

/-! ### Utterances -/

/-- A packet put into an envelope: its encoding, and the bytes on the wire unless the send
failed. -/
structure Utterance where
  inner : Bytes
  sent : Option Bytes
  deriving DecidableEq, Repr

namespace Outward

variable (a : Outward)

def tell (e : Effect) : Outward := { a with said := a.said ++ [e] }

def fragment (keyId : UInt8) (chunk : Bytes) : ControlPacket :=
  ⟨.controlV1, keyId, a.serverSid, a.pending,
    if a.pending.isEmpty then none else some a.clientSid, some a.nextPid, chunk⟩

def bareAck (keyId : UInt8) : ControlPacket :=
  ⟨.ackV1, keyId, a.serverSid, a.pending, some a.clientSid, none, []⟩

def answer (op : OpCode) (keyId : UInt8) (ackPid : UInt32) : ControlPacket :=
  ⟨op, keyId, a.serverSid, [ackPid], some a.clientSid, some a.nextPid, []⟩

def request (keyId : UInt8) : ControlPacket :=
  ⟨.controlSoftResetV1, keyId, a.serverSid, [], none, some a.nextPid, []⟩

/-- The packet takes the next id of the envelope; if it is sent and has an id it is kept for
retransmission. -/
def utter (S : VpnServer Conn) (pkt : ControlPacket) : Option Bytes → Outward
  | none => { a with counter := S.nextId a.counter }
  | some b => { a with counter := S.nextId a.counter
                       queue := a.queue ++ (pkt.packetId.map (⟨·, pkt.encode, a.now, 1⟩)).toList
                       said := a.said ++ [.wire b] }

end Outward

/-- A packet is drafted in answer to the packet id `heard`. -/
inductive Drafts (heard : Option UInt32) (a : Outward) : ControlPacket → Outward → Prop
  | fragment (ctx : Ctx) (keyId : UInt8) {chunk : Bytes}
      (hc : chunk.length ≤ maxTlsPayloadPerControl) :
      Drafts heard a (a.fragment keyId chunk)
        (Outward.tell { a with nextPid := a.nextPid + 1, pending := [] }
          (.frag ctx (a.fragment keyId chunk)))
  | ack (keyId : UInt8) (hp : a.pending ≠ []) :
      Drafts heard a (a.bareAck keyId)
        (Outward.tell { a with pending := [] } (.ack (a.bareAck keyId)))
  | answer {op : OpCode} (hop : op = .controlHardResetServerV2 ∨ op = .controlSoftResetV1)
      (keyId : UInt8) :
      Drafts heard a (a.answer op keyId (heard.getD 0))
        (Outward.tell { a with nextPid := a.nextPid + 1 }
          (.reset (a.answer op keyId (heard.getD 0))))
  | request (keyId : UInt8) :
      Drafts heard a (a.request keyId)
        (Outward.tell { a with nextPid := a.nextPid + 1 } (.reset (a.request keyId)))

/-- A number of utterances one after the other, and the end of a rekey anywhere among them. -/
inductive Speaks (S : VpnServer Conn) (heard : Option UInt32) (a : Outward) :
    List Utterance → Outward → Prop
  | silent : Speaks S heard a [] a
  | speak {us : List Utterance} {b d : Outward} {pkt : ControlPacket} (h : Speaks S heard a us b)
      (hd : Drafts heard b pkt d) (sent : Option Bytes)
      (hs : ∀ x ∈ sent, S.envelope pkt.encode b.counter b.unixTime = .ok x) :
      Speaks S heard a (us ++ [⟨pkt.encode, sent⟩]) (d.utter S pkt sent)
  | renewed {us : List Utterance} {b : Outward} (h : Speaks S heard a us b) (keyId : UInt8)
      (before after : SlotTable) :
      Speaks S heard a us
        (Outward.tell { b with lastRekeyAt := b.now } (.rekeyed keyId before after))

lemma Speaks.trans {heard : Option UInt32} {a b c : Outward} {us vs : List Utterance}
    (h : Speaks S heard a us b) (h' : Speaks S heard b vs c) : Speaks S heard a (us ++ vs) c := by
  induction h' with
  | silent => rwa [List.append_nil]
  | speak _ hd sent hs ih =>
    rw [← List.append_assoc]
    exact ih.speak hd sent hs
  | renewed _ keyId before after ih => exact ih.renewed keyId before after

/-- From `w` the program, failing or not, makes a number of utterances. -/
def SaysAt (S : VpnServer Conn) (heard : Option UInt32) (m : M Conn α) (w : World Conn) : Prop :=
  ∃ us, Speaks S heard w.outward us (m w).2.outward

def Says (S : VpnServer Conn) (heard : Option UInt32) (m : M Conn α) : Prop :=
  ∀ w, SaysAt S heard m w

section Says

variable {β : Type} {heard : Option UInt32}

lemma SaysAt.of_keeps {m : M Conn α} (h : KeepsAt World.outward m w) : SaysAt S heard m w :=
  ⟨[], by rw [h]; exact .silent⟩

lemma Says.of_keeps {m : M Conn α} (h : Keeps World.outward m) : Says S heard m :=
  fun w => .of_keeps (h w)

lemma Says.of_frame {m : M Conn α} (h : Keeps World.frame m) : Says S heard m :=
  .of_keeps fun w => congrArg Prod.fst (h w)

lemma SaysAt.bind {m : M Conn α} {f : α → M Conn β} (hm : SaysAt S heard m w)
    (hf : ∀ x, Says S heard (f x)) : SaysAt S heard (m >>= f) w := by
  obtain ⟨us, hus⟩ := hm
  rcases hmw : m w with ⟨e | x, v⟩ <;> rw [hmw] at hus
  · exact ⟨us, by rwa [bind_error hmw]⟩
  · obtain ⟨vs, hvs⟩ := hf x v
    exact ⟨us ++ vs, by rw [bind_ok hmw]; exact hus.trans hvs⟩

lemma Says.bind {m : M Conn α} {f : α → M Conn β} (hm : Says S heard m)
    (hf : ∀ x, Says S heard (f x)) : Says S heard (m >>= f) :=
  fun w => (hm w).bind hf

lemma says_get_bind {f : World Conn → M Conn β} (h : ∀ w, SaysAt S heard (f w) w) :
    Says S heard (get >>= f) := h

lemma says_pure (x : α) : Says S heard (pure x : M Conn α) := .of_keeps (keeps_pure x)

lemma says_forM {l : List α} {f : α → M Conn PUnit} (h : ∀ x ∈ l, Says S heard (f x)) :
    Says S heard (forM l f) := by
  induction l with
  | nil => exact says_pure _
  | cons x t ih =>
    rw [List.forM_cons]
    exact (h x (by simp)).bind fun _ => ih fun y hy => h y (by simp [hy])

lemma sendAndTrack_utter (S : VpnServer Conn) (pkt : ControlPacket) (w : World Conn) :
    ∃ sent, (∀ x ∈ sent, S.envelope pkt.encode w.outward.counter w.outward.unixTime = .ok x) ∧
      (sendAndTrack S pkt w).2.outward = w.outward.utter S pkt sent := by
  obtain ⟨wire, hwire⟩ := envelope_ok S pkt.length_encode w.sess.tlsAuthPidOut w.env.unixTime
  have hwrap := wrapForWire_eq S pkt.encode w
  rw [hwire] at hwrap
  obtain ⟨v, hv⟩ : ∃ v, v = { w with sess := { w.sess with
      tlsAuthPidOut := S.nextId w.sess.tlsAuthPidOut } } := ⟨_, rfl⟩
  rw [← hv] at hwrap
  rw [sendAndTrack, bind_ok hwrap]
  rcases transportSend_apply wire v with ⟨-, e, hsend⟩ | ⟨-, hsend⟩
  -- the send failed: nothing is said, but the counter has moved
  · rw [bind_error hsend, hv]
    exact ⟨none, by simp, rfl⟩
  · refine ⟨some wire, fun x hx => Option.mem_some.mp hx ▸ hwire, ?_⟩
    have hsaid : speech (w.log ++ [.wire wire, .sent pkt]) = speech w.log ++ [.wire wire] :=
      speech_append _ _
    rw [bind_ok hsend, hv]
    rcases hid : pkt.packetId with _ | p
    · simp [M.emit, World.outward, Outward.utter, hid, hsaid]
    · simp [M.emit, World.outward, Outward.utter, Session.recordSent, hid, hsaid]

lemma Drafts.counter {a d : Outward} {pkt : ControlPacket} (h : Drafts heard a pkt d) :
    d.counter = a.counter ∧ d.unixTime = a.unixTime := by
  cases h <;> exact ⟨rfl, rfl⟩

lemma says_draft {v : World Conn} {pkt : ControlPacket} {d : Outward}
    (hd : Drafts heard w.outward pkt d) (hv : v.outward = d) :
    ∃ us, Speaks S heard w.outward us (sendAndTrack S pkt v).2.outward := by
  obtain ⟨sent, hsent, h⟩ := sendAndTrack_utter S pkt v
  rw [hv, hd.counter.1, hd.counter.2] at hsent
  rw [h, hv]
  exact ⟨_, Speaks.silent.speak hd sent hsent⟩

lemma outward_say {e : Effect} (he : e.isSpeech = true) (v : World Conn) :
    World.outward { v with log := v.log ++ [e] } = v.outward.tell e := by
  have hsaid : speech (v.log ++ [e]) = speech v.log ++ [e] := by
    rw [speech_append]
    exact congrArg _ (List.filter_cons_of_pos he)
  unfold World.outward Outward.tell
  dsimp only
  rw [hsaid]

/-! ### Flushes -/

variable (S)

lemma says_sendChunk (ctx : Ctx) (keyId : UInt8) {chunk : Bytes}
    (hc : chunk.length ≤ maxTlsPayloadPerControl) : Says S heard (sendChunk S ctx keyId chunk) :=
  fun w => says_draft (.fragment ctx keyId hc)
    (outward_say rfl { w with sess := (w.sess.makeControl keyId chunk).2 })

lemma says_sendChunks (ctx : Ctx) (keyId : UInt8) (out : Bytes) :
    Says S heard (forM (chunks maxTlsPayloadPerControl out) (sendChunk S ctx keyId)) :=
  says_forM fun _ hc => says_sendChunk S ctx keyId (of_mem_chunks (by decide) hc).2

lemma sendAndTrack_of_none {pkt : ControlPacket} (hid : pkt.packetId = none) :
    sendAndTrack S pkt = (do
      let wire ← wrapForWire S pkt.encode
      transportSend wire
      M.emit (.sent pkt)) := by
  unfold sendAndTrack
  rw [hid]
  rfl

lemma says_flushOutgoing : Says S heard (flushOutgoing S) := by
  intro w
  obtain ⟨v, hv⟩ : ∃ v, v = { w with
      sess := { w.sess with tls := (w.sess.tls.takeOutgoing S.rustls).1 }
      log := w.log ++ [Effect.drained .main (w.sess.tls.takeOutgoing S.rustls).2] } := ⟨_, rfl⟩
  have hout : v.outward = w.outward := by
    rw [hv]
    exact outward_tell rfl rfl rfl
  simp only [SaysAt, flushOutgoing, get_bind, put_bind, ← hout]
  rw [← hv]
  split
  · exact says_sendChunks S _ _ _ v
  split
  · rename_i hpend
    have hne : v.outward.pending ≠ [] := by
      rw [hout]
      simpa [World.outward] using hpend
    -- a bare ack has no id, so that it is sent but not tracked
    have hsend := sendAndTrack_of_none S
      (show (w.sess.makeAck w.sess.activeKeyId w.sess.pendingAcks).packetId = none from rfl)
    rw [modify_bind, ← hsend]
    have hack : w.sess.makeAck w.sess.activeKeyId w.sess.pendingAcks =
        v.outward.bareAck w.sess.activeKeyId := by
      rw [hout]
      rfl
    rw [hack]
    exact says_draft (.ack _ hne)
      (outward_say rfl { v with sess := { v.sess with pendingAcks := [] } })
  · exact ⟨[], .silent⟩

lemma says_flushRekeyOutgoing : Says S heard (flushRekeyOutgoing S) := by
  rw [flushRekeyOutgoing_eq]
  refine says_get_bind fun w => ?_
  rcases w.sess.rekey with _ | rk
  · exact says_pure _ w
  refine SaysAt.bind (.of_keeps (keepsAt_set (outward_tell rfl rfl rfl))) fun _ => ?_
  split
  · exact says_pure _
  · exact says_sendChunks S _ _ _

lemma says_finishRekey : Says S heard (finishRekey : M Conn Unit) := by
  rw [finishRekey_eq]
  refine says_get_bind fun w => ?_
  rcases w.sess.rekey with _ | rk
  · exact says_pure _ w
  dsimp only
  split
  · have hdone := outward_say
      (e := .rekeyed rk.keyId w.sess.toSlotTable (w.sess.toSlotTable.promoteSlot rk.keyId).2) rfl
      { w with sess := { w.sess with
                toSlotTable := (w.sess.toSlotTable.promoteSlot rk.keyId).2
                rekey := none
                lastRekeyAt := w.env.now } }
    exact ⟨[], Eq.subst (motive := Speaks S heard w.outward []) hdone.symm
      (Speaks.silent.renewed _ _ _)⟩
  · exact says_pure _ w

/-! ### Control packets -/

lemma says_handleRekeyControl (ctrl : ControlPacket) :
    Says S heard (handleRekeyControl S ctrl) := by
  rw [handleRekeyControl]
  refine says_get_bind fun w => ?_
  rcases w.sess.rekey with _ | rk
  · exact says_pure _ w
  dsimp only
  rcases rk.tls.feed S.rustls ctrl.payload with ⟨tls, fed⟩
  refine SaysAt.bind (.of_keeps (keepsAt_set (outward_tell rfl rfl rfl))) fun _ => ?_
  refine Says.bind (.of_frame (frame_context _ _)) fun _ => ?_
  have hrest : Says S heard (do
      driveRekeyControlPlane S
      flushRekeyOutgoing S
      finishRekey) :=
    Says.bind (.of_frame (frame_driveRekeyControlPlane S)) fun _ =>
      (says_flushRekeyOutgoing S).bind fun _ => says_finishRekey S
  split
  · exact Says.bind (.of_keeps (keeps_modify fun _ => outward_tell rfl rfl rfl)) fun _ => hrest
  · exact hrest

lemma says_handleMainControl (addr : SocketAddr) (ctrl : ControlPacket) :
    Says S heard (handleMainControl S addr ctrl) := by
  rw [handleMainControl]
  refine says_get_bind fun w => ?_
  rcases w.sess.tls.feed S.rustls ctrl.payload with ⟨tls, fed⟩
  refine SaysAt.bind (.of_keeps (keepsAt_set (outward_tell rfl rfl rfl))) fun _ => ?_
  refine Says.bind (.of_frame (frame_context _ _)) fun _ => ?_
  have hrest : Says S heard (do driveControlPlane S addr; flushOutgoing S) :=
    Says.bind (.of_frame (frame_driveControlPlane S addr)) fun _ => says_flushOutgoing S
  dsimp only
  split
  · refine Says.bind (.of_keeps (keeps_modify fun v => outward_tell rfl ?_ rfl)) fun _ => hrest
    unfold Session.finalizeKeys
    split <;> rfl
  · exact hrest

lemma says_dispatch (addr : SocketAddr) (ctrl : ControlPacket) :
    Says S ctrl.packetId (dispatch S addr ctrl) := by
  rw [dispatch]
  split
  · refine says_get_bind fun w => ?_
    split
    · exact says_handleRekeyControl S ctrl w
    · exact says_handleMainControl S addr ctrl w
  · refine says_get_bind fun w => ?_
    split
    · exact says_pure _ w
    split
    · exact says_pure _ w
    split
    · exact ⟨[], .silent⟩
    · exact says_draft (.answer (.inr rfl) ctrl.keyId) (outward_say rfl { w with sess := _ })
  · exact says_pure _

def Outward.at (a : Outward) (env : Env Conn) : Outward :=
  { a with now := env.now, unixTime := env.unixTime }

/-- A control packet is noted: its acknowledgements release entries of the retransmit queue, and
its id is owed an acknowledgement if it is new. -/
def Outward.noted (a : Outward) (ctrl : ControlPacket) : Outward :=
  let a := { a with lastSeen := a.now,
                    queue := a.queue.filter fun u => !ctrl.acks.contains u.packetId }
  match ctrl.packetId with
  | some pid =>
    if a.received.contains pid then a
    else { a with received := pid :: a.received, pending := a.pending ++ [pid] }
  | none => a

lemma outward_accepted (ctrl : ControlPacket) {replayPid : Option UInt32}
    (h : accepts w replayPid = true) :
    ∃ v, acceptControl ctrl replayPid w = (.ok (), v) ∧ v.outward = w.outward.noted ctrl := by
  obtain ⟨replay, hcheck⟩ := checkReplay_accepted
    (w := { w with sess := { w.sess with lastSeen := w.env.now } }) h
  obtain ⟨v, hv, hout⟩ : ∃ v, processAcks ctrl.acks { w with sess := { w.sess with
      lastSeen := w.env.now, tlsAuthReplay := replay } } = (.ok (), v) ∧
      v.outward = { w.outward with
        lastSeen := w.env.now
        queue := w.sess.unacked.filter fun u => !ctrl.acks.contains u.packetId } := by
    unfold processAcks
    rcases ctrl.acks with _ | ⟨id, ids⟩
    · refine ⟨_, rfl, ?_⟩
      simp [World.outward]
    · exact ⟨_, rfl, outward_silent (e := .acked (id :: ids)) rfl
        { w with sess := { w.sess with
                  lastSeen := w.env.now
                  tlsAuthReplay := replay
                  unacked := w.sess.unacked.filter fun u => !(id :: ids).contains u.packetId } }⟩
  unfold acceptControl
  rw [modify_bind, bind_ok hcheck, bind_ok hv]
  unfold Outward.noted
  rcases ctrl.packetId with _ | pid
  · exact ⟨v, rfl, hout⟩
  · refine ⟨_, rfl, ?_⟩
    have hnow : v.env.now = w.env.now := congrArg Outward.now hout
    have hnoted : World.outward { v with sess := v.sess.noteReceived pid v.env.now } =
        if v.outward.received.contains pid then { v.outward with lastSeen := v.env.now }
        else { v.outward with lastSeen := v.env.now, received := pid :: v.outward.received,
                              pending := v.outward.pending ++ [pid] } := by
      unfold Session.noteReceived
      show _ = if v.sess.receivedPids.contains pid then _ else _
      split <;> rfl
    rw [hnoted, hout, hnow]
    rfl

end Says

/-! ### Retransmissions -/

/-- A packet of the queue takes the next id of the envelope, and goes out unless it cannot be
wrapped or the send fails. -/
def Outward.resent (S : VpnServer Conn) (a : Outward) (sent : Option Bytes) : Outward :=
  { a with counter := S.nextId a.counter, said := a.said ++ (sent.map Effect.wire).toList }

inductive Resends (S : VpnServer Conn) : Outward → List Utterance → Outward → Prop
  | nil (a : Outward) : Resends S a [] a
  | cons {a b : Outward} {us : List Utterance} (inner : Bytes) (sent : Option Bytes)
      (hs : ∀ x ∈ sent, S.envelope inner a.counter a.unixTime = .ok x)
      (h : Resends S (a.resent S sent) us b) : Resends S a (⟨inner, sent⟩ :: us) b

section Retransmit

variable (S)

lemma noPanic_envelope (inner : Bytes) (pid ts : UInt32) :
    NoPanic (S.envelope inner pid ts) := by
  unfold VpnServer.envelope
  split
  · exact noPanic_tlsCryptWrap _ _ _ _ _
  · exact noPanic_tlsAuthWrap _ _ _ _ _
  · exact noPanic_ok _

/-- The datagrams around a number of packets, under consecutive ids; what cannot be wrapped is
left out. -/
def VpnServer.envelopes (ts : UInt32) : UInt32 → List Bytes → List Bytes
  | _, [] => []
  | pid, inner :: rest =>
    (S.envelope inner pid ts).toOption.toList ++ envelopes ts (S.nextId pid) rest

def VpnServer.idAfter (pid : UInt32) : ℕ → UInt32
  | 0 => pid
  | n + 1 => idAfter (S.nextId pid) n

lemma rewrap_eq (stale : List Bytes) (w : World Conn) :
    rewrap S stale w =
      (.ok (S.envelopes w.env.unixTime w.sess.tlsAuthPidOut stale),
        { w with sess := { w.sess with
            tlsAuthPidOut := S.idAfter w.sess.tlsAuthPidOut stale.length } }) := by
  induction stale generalizing w with
  | nil => rfl
  | cons inner rest ih =>
    have hwrap := wrapForWire_eq S inner w
    -- a packet whose envelope does not build is skipped, and its id is used all the same
    have hone : M.recover (do return [← wrapForWire S inner]) [] w =
        (.ok (S.envelope inner w.sess.tlsAuthPidOut w.env.unixTime).toOption.toList,
          { w with sess := { w.sess with
              tlsAuthPidOut := S.nextId w.sess.tlsAuthPidOut } }) := by
      unfold M.recover
      rcases he : S.envelope inner w.sess.tlsAuthPidOut w.env.unixTime with (msg | msg) | b <;>
        rw [he] at hwrap
      · exact tryCatch_error (bind_error hwrap)
      · exact absurd he (noPanic_envelope S _ _ _ msg)
      · exact tryCatch_ok (bind_ok hwrap)
    rw [rewrap, bind_ok hone, bind_ok (ih _)]
    rfl

lemma attempt_outward (b : Bytes) (w : World Conn) :
    (M.attempt (transportSend b) w).2.outward = w.outward ∨
      (M.attempt (transportSend b) w).2.outward = w.outward.tell (.wire b) := by
  unfold M.attempt M.recover
  rcases transportSend_apply b w with ⟨-, e, hsend⟩ | ⟨-, hsend⟩
  · rw [tryCatch_error hsend]
    rcases e <;> exact .inl rfl
  · rw [tryCatch_ok hsend]
    exact .inr (outward_say rfl { w with env := { w.env with sends := w.env.sends.tail } })

lemma attempts_outward (wires : List Bytes) (w : World Conn) :
    ∃ sub : List Bytes, sub.Sublist wires ∧
      (forM wires (fun bytes => M.attempt (transportSend bytes)) w).2.outward =
        { w.outward with said := w.outward.said ++ sub.map Effect.wire } := by
  induction wires generalizing w with
  | nil => exact ⟨[], .slnil, by simp⟩
  | cons b wires ih =>
    have hone := attempt_outward b w
    rw [List.forM_cons]
    rcases hm : M.attempt (transportSend b) w with ⟨e | u, v⟩ <;> rw [hm] at hone
    · rw [bind_error hm]
      rcases hone with hone | hone
      · exact ⟨[], List.nil_sublist _, by simp [hone]⟩
      · exact ⟨[b], (List.nil_sublist _).cons_cons b, by simp [hone, Outward.tell]⟩
    · rw [bind_ok hm]
      obtain ⟨sub, hsub, hout⟩ := ih v
      rcases hone with hone | hone
      · exact ⟨sub, hsub.cons b, by rw [hout, hone]⟩
      · exact ⟨b :: sub, hsub.cons_cons b, by rw [hout, hone]; simp [Outward.tell]⟩

lemma resends_envelopes (stale sub : List Bytes) (a : Outward)
    (h : sub.Sublist (S.envelopes a.unixTime a.counter stale)) :
    ∃ us : List Utterance, us.map Utterance.inner = stale ∧
      Resends S a us { a with counter := S.idAfter a.counter stale.length
                              said := a.said ++ sub.map Effect.wire } := by
  induction stale generalizing a sub with
  | nil =>
    rw [List.sublist_nil.mp h]
    refine ⟨[], rfl, ?_⟩
    simpa [VpnServer.idAfter] using Resends.nil (S := S) a
  | cons inner rest ih =>
    -- the first datagram sent is that of the first packet, or the first packet was not sent
    obtain ⟨now, later, rfl, hnow, hlater⟩ := List.sublist_append_iff.mp h
    obtain ⟨sent, rfl, hsent⟩ : ∃ sent : Option Bytes, now = sent.toList ∧
        ∀ x ∈ sent, S.envelope inner a.counter a.unixTime = .ok x := by
      rcases he : S.envelope inner a.counter a.unixTime with e | b <;> rw [he] at hnow
      · exact ⟨none, List.sublist_nil.mp hnow, nofun⟩
      · rcases List.sublist_singleton.mp hnow with rfl | rfl
        · exact ⟨none, rfl, nofun⟩
        · exact ⟨some b, rfl, fun x hx => congrArg _ (Option.mem_some.mp hx)⟩
    obtain ⟨us, hus, hres⟩ := ih later (a.resent S sent) hlater
    refine ⟨⟨inner, sent⟩ :: us, congrArg _ hus, .cons inner sent hsent ?_⟩
    rcases sent <;> simpa [Outward.resent, VpnServer.idAfter] using hres

/-- **A visit of the retransmit task** sends each packet whose backoff is over again. -/
lemma retransmitTick_resends (w : World Conn) :
    ∃ us : List Utterance,
      us.map Utterance.inner = (w.sess.staleUnacked w.env.now controlBaseRto).2 ∧
      Resends S { w.outward with
          queue := (w.sess.staleUnacked w.env.now controlBaseRto).1.unacked } us
        (retransmitTick S w).2.outward := by
  -- the scan comes first: it stamps the queue before anything is wrapped
  obtain ⟨v, hv⟩ : ∃ v, v = { w with
      sess := (w.sess.staleUnacked w.env.now controlBaseRto).1 } := ⟨_, rfl⟩
  have hout : v.outward = { w.outward with
      queue := (w.sess.staleUnacked w.env.now controlBaseRto).1.unacked } := by
    rw [hv]
    rfl
  obtain ⟨stale, hstale⟩ : ∃ stale, stale = (w.sess.staleUnacked w.env.now controlBaseRto).2 :=
    ⟨_, rfl⟩
  have htick : retransmitTick S w = (do
      let wires ← rewrap S stale
      forM wires fun bytes => M.attempt (transportSend bytes)) v := by
    rw [hv, hstale]
    rfl
  rw [htick, bind_ok (rewrap_eq S stale v), ← hout, ← hstale]
  obtain ⟨sub, hsub, hsaid⟩ := attempts_outward
    (S.envelopes v.env.unixTime v.sess.tlsAuthPidOut stale)
    { v with sess := { v.sess with tlsAuthPidOut := S.idAfter v.sess.tlsAuthPidOut stale.length } }
  rw [hsaid]
  exact resends_envelopes S stale sub v.outward hsub

end Retransmit

/-! ### Events -/

/-- The time of an event, if it looks at the clock. -/
def Outward.arrive (a : Outward) : Event Conn → Outward
  | .control env .. | .data env _ | .tun env _ | .ping env | .rekey env | .retransmit env
  | .shutdown env => a.at env
  | .shared _ => a

/-- What an event can do to the outward side of a session it finds as `w`. -/
inductive Shows (S : VpnServer Conn) (w : World Conn) (e : Event Conn) :
    List Utterance → Outward → Prop
  | idle (hc : ∀ env ctrl replayPid, e ≠ .control env ctrl replayPid)
      (hr : ∀ env, e ≠ .retransmit env) :
      Shows S w e [] (w.outward.arrive e)
  | refused {env : Env Conn} {ctrl : ControlPacket} {replayPid : Option UInt32}
      (he : e = .control env ctrl replayPid) (h : accepts w replayPid = false) :
      Shows S w e [] { w.outward.at env with lastSeen := env.now }
  | heard {env : Env Conn} {ctrl : ControlPacket} {replayPid : Option UInt32}
      {us : List Utterance} {b : Outward} (he : e = .control env ctrl replayPid)
      (h : accepts w replayPid = true)
      (hs : Speaks S ctrl.packetId ((w.outward.at env).noted ctrl) us b) : Shows S w e us b
  | opened {env : Env Conn} {pkt : Bytes} (he : e = .data env pkt) :
      Shows S w e [] { w.outward.at env with lastSeen := env.now }
  | sealed {env : Env Conn} (he : (∃ ipPkt, e = .tun env ipPkt) ∨ e = .ping env)
      (keyId : UInt8) (pid : UInt32) (ct : Bytes) :
      Shows S w e []
        ((w.outward.at env).tell (.wire (Session.dataHeader w.sess.peerId keyId pid ++ ct)))
  | requested {env : Env Conn} {us : List Utterance} {b : Outward} (he : e = .rekey env)
      (hst : w.sess.state = .established) (hrk : w.sess.rekey = none)
      (hdue : S.cfg.renegSec.toNat * 1000 ≤ env.now - w.sess.lastRekeyAt)
      (hs : Speaks S none { w.outward.at env with lastRekeyAt := env.now } us b) : Shows S w e us b
  | resent {env : Env Conn} {us : List Utterance} {b : Outward} (he : e = .retransmit env)
      (hus : us.map Utterance.inner = (w.sess.staleUnacked env.now controlBaseRto).2)
      (hr : Resends S { w.outward.at env with
        queue := (w.sess.staleUnacked env.now controlBaseRto).1.unacked } us b) : Shows S w e us b
  | restarted {env : Env Conn} {us : List Utterance} {b : Outward} (he : e = .shutdown env)
      (hs : Speaks S none (w.outward.at env) us b) : Shows S w e us b

section Events

variable (S)

lemma control_shows (addr : SocketAddr) (w : World Conn) (env : Env Conn) (ctrl : ControlPacket)
    (replayPid : Option UInt32) :
    ∃ us, Shows S w (.control env ctrl replayPid) us
      (step S addr w (.control env ctrl replayPid)).outward := by
  rcases h : accepts w replayPid
  · rcases replayPid with _ | pid
    · cases h
    · have hrefused := handleLocked_refused (w := { w with env }) S addr ctrl h
      rw [step, hrefused]
      exact ⟨[], .refused rfl h⟩
  · obtain ⟨v, hv, hout⟩ := outward_accepted (w := { w with env }) ctrl h
    obtain ⟨us, hus⟩ := says_dispatch S addr ctrl v
    rw [step, handleLocked, bind_ok hv]
    rw [hout] at hus
    exact ⟨us, .heard rfl h hus⟩

lemma data_shows (addr : SocketAddr) (w : World Conn) (env : Env Conn) (pkt : Bytes) :
    Shows S w (.data env pkt) [] (step S addr w (.data env pkt)).outward := by
  have hopened (dp : DataPacketV2) (i : Fin 2) (slot : KeySlot) :
      (World.opened { w with env } pkt dp i slot).outward =
        { w.outward.at env with lastSeen := env.now } :=
    outward_silent (e := .opened slot.cipher dp.packetId pkt) rfl
      { w with env
               sess := { w.sess with
                toSlotTable := w.sess.setSlot i
                  { slot with replay := (slot.replay.checkAndSet dp.packetId).2 }
                lastSeen := env.now } }
  rcases decryptAndForward_cases (S := S) { w with env } pkt with
    ⟨e, h⟩ | ⟨dp, i, slot, plaintext, -, h | h⟩ <;> rw [step, h]
  · exact .idle (by simp) (by simp)
  · rw [hopened]
    exact .opened rfl
  · rw [outward_silent rfl, hopened]
    exact .opened rfl

lemma sendData_outward (plaintext : Bytes) (w : World Conn) :
    ((do transportSend (← buildDataPacket S plaintext) : M Conn Unit) w).2.outward = w.outward ∨
    ∃ keyId pid ct, ((do transportSend (← buildDataPacket S plaintext) : M Conn Unit) w).2.outward =
      w.outward.tell (.wire (Session.dataHeader w.sess.peerId keyId pid ++ ct)) := by
  unfold buildDataPacket
  rw [bind_bind, get_bind]
  rcases w.sess.activeSlot with _ | slot
  · exact .inl rfl
  dsimp only
  rw [bind_bind, put_bind, bind_bind]
  obtain ⟨table, htable⟩ : ∃ table, table = w.sess.setSlot w.sess.activeSlotIdx
      { slot with dataPidOut := slot.dataPidOut + 1 } := ⟨_, rfl⟩
  obtain ⟨v, hv, hsame⟩ : ∃ v : World Conn, v = { w with
      sess := { w.sess with toSlotTable := table }
      log := w.log ++ [Effect.sealed slot.cipher slot.dataPidOut] } ∧ v.outward = w.outward :=
    ⟨_, rfl, outward_tell rfl rfl rfl⟩
  -- the counter of the key slot moves before the packet is sealed
  rw [← htable, ← hv, ← hsame]
  rcases slot.cipher.seal' S.prims slot.dataPidOut
    (Session.dataHeader w.sess.peerId slot.keyId slot.dataPidOut) plaintext with e | ct
  · exact .inl rfl
  · rw [bind_ok (ofExcept_apply _ _), pure_bind]
    rcases transportSend_apply (Session.dataHeader w.sess.peerId slot.keyId slot.dataPidOut ++ ct)
      v with ⟨-, e, hsend⟩ | ⟨-, hsend⟩ <;> rw [hsend]
    · exact .inl rfl
    · exact .inr ⟨_, _, _, outward_say rfl { v with env := _ }⟩

lemma says_rekeyTick {conn : Conn} (hst : ¬ (w.sess.state ≠ .established ∨ w.sess.rekey.isSome))
    (hdue : ¬ w.env.now - w.sess.lastRekeyAt < S.cfg.renegSec.toNat * 1000)
    (hconn : w.env.conn = some conn) :
    ∃ us, Speaks S none { w.outward with lastRekeyAt := w.env.now } us
      (rekeyTick S w).2.outward := by
  obtain ⟨keyId, hkey⟩ : ∃ keyId, keyId = (w.sess.activeKeyId + 1) &&& 0x07 := ⟨_, rfl⟩
  obtain ⟨s, hs⟩ : ∃ s, s = { w.sess.startRekey keyId (.new conn) w.env.random1 w.env.random2 with
      lastRekeyAt := w.env.now } := ⟨_, rfl⟩
  have hbegun : World.outward { w with sess := s } =
      { w.outward with lastRekeyAt := w.env.now } := by
    rw [hs]
    rfl
  have htick : rekeyTick S w = sendAndTrack S (s.makeSoftResetInit keyId).1
      { w with sess := (s.makeSoftResetInit keyId).2
               log := w.log ++ [.reset (s.makeSoftResetInit keyId).1] } := by
    rw [rekeyTick, get_bind, if_neg hst, if_neg hdue, hconn, hs, hkey]
    rfl
  rw [htick, ← hbegun]
  exact says_draft (.request keyId)
    (outward_say rfl { w with sess := (s.makeSoftResetInit keyId).2 })

lemma rekey_shows (addr : SocketAddr) (w : World Conn) (env : Env Conn) :
    ∃ us, Shows S w (.rekey env) us (step S addr w (.rekey env)).outward := by
  rw [step]
  by_cases hst : w.sess.state ≠ .established ∨ w.sess.rekey.isSome
  · rw [rekeyTick, get_bind, if_pos hst]
    exact ⟨[], .idle (by simp) (by simp)⟩
  by_cases hdue : env.now - w.sess.lastRekeyAt < S.cfg.renegSec.toNat * 1000
  · rw [rekeyTick, get_bind, if_neg hst, if_pos hdue]
    exact ⟨[], .idle (by simp) (by simp)⟩
  rcases hconn : env.conn with _ | conn
  · have hnone : rekeyTick S { w with env } = (.ok (), { w with env }) := by
      rw [rekeyTick, get_bind, if_neg hst, if_neg hdue, hconn]
      rfl
    rw [hnone]
    exact ⟨[], .idle (by simp) (by simp)⟩
  · obtain ⟨us, hus⟩ := says_rekeyTick S (w := { w with env }) hst hdue hconn
    rw [not_or, not_not] at hst
    exact ⟨us, .requested rfl hst.1 (by simpa using hst.2) (Nat.le_of_not_lt hdue) hus⟩

/-- **Every event shows itself in one of these ways.** -/
theorem step_shows (addr : SocketAddr) (w : World Conn) (e : Event Conn) :
    ∃ us, Shows S w e us (step S addr w e).outward := by
  cases e with
  | control env ctrl replayPid => exact control_shows S addr w env ctrl replayPid
  | data env pkt => exact ⟨[], data_shows S addr w env pkt⟩
  | tun env ipPkt =>
    rw [step, forwardLocked, get_bind]
    split
    · exact ⟨[], .idle (by simp) (by simp)⟩
    · rcases sendData_outward S ipPkt { w with env } with h | ⟨keyId, pid, ct, h⟩ <;> rw [h]
      · exact ⟨[], .idle (by simp) (by simp)⟩
      · exact ⟨[], .sealed (.inl ⟨ipPkt, rfl⟩) keyId pid ct⟩
  | ping env =>
    rw [step, pingTick, get_bind]
    split
    · exact ⟨[], .idle (by simp) (by simp)⟩
    · rcases sendData_outward S pingPayload { w with env } with h | ⟨keyId, pid, ct, h⟩ <;> rw [h]
      · exact ⟨[], .idle (by simp) (by simp)⟩
      · exact ⟨[], .sealed (.inr rfl) keyId pid ct⟩
  | rekey env => exact rekey_shows S addr w env
  | retransmit env =>
    obtain ⟨us, hus, hr⟩ := retransmitTick_resends S { w with env }
    exact ⟨us, .resent rfl hus hr⟩
  | shutdown env =>
    have hsays : Says S none (shutdownClient S) := by
      refine says_get_bind fun v => ?_
      split
      · exact says_pure _ v
      · exact Says.bind (.of_frame (frame_sendPlaintext S _)) (fun _ => says_flushOutgoing S) v
    obtain ⟨us, hus⟩ := hsays { w with env }
    exact ⟨us, .restarted rfl hus⟩
  | shared tab => exact ⟨[], .idle (by simp) (by simp)⟩

def Outward.opening (o : Opening Conn) : Outward :=
  ⟨o.env.serverSid, o.ctrl.sessionId, 0, [], [], 1, [], o.env.now, o.env.now, o.env.now,
    o.env.unixTime, []⟩

lemma started_speaks (o : Opening Conn) :
    ∃ us, Speaks S o.ctrl.packetId (.opening o) us (started S o).outward :=
  says_draft (w := ⟨newSession o.ctrl o.replayPid o.peerId o.transport o.conn o.env, o.tab, o.env,
      []⟩) (.answer (.inl rfl) 0)
    (outward_say rfl ⟨((newSession o.ctrl o.replayPid o.peerId o.transport o.conn
      o.env).makeHardResetReply (o.ctrl.packetId.getD 0)).2, o.tab, o.env, []⟩)

end Events

/-! ### Invariants of the outward side -/

/-- What holds of the outward side is kept by the clock, by the notes about an inbound packet, by
a draft, by datagrams on their way, and by the end of a rekey. -/
structure Outward.Invariant (I : Outward → Prop) : Prop where
  clock : ∀ a now unixTime lastSeen lastRekeyAt, I a →
    I { a with now, unixTime, lastSeen, lastRekeyAt }
  noted : ∀ a ctrl, I a → I (a.noted ctrl)
  draft : ∀ a heard pkt d, I a → Drafts heard a pkt d → I d
  sent : ∀ a counter queue (bs : List Bytes), I a →
    I { a with counter, queue, said := a.said ++ bs.map Effect.wire }
  rekeyed : ∀ a keyId before after, I a → I (a.tell (.rekeyed keyId before after))

namespace Outward.Invariant

variable {I : Outward → Prop} {heard : Option UInt32} {us : List Utterance} {a b : Outward}

lemma speaks (h : Invariant I) (ha : I a) (hs : Speaks S heard a us b) : I b := by
  induction hs with
  | silent => exact ha
  | @speak us c d pkt _ hd sent _ ih =>
    have hdraft := h.draft _ _ _ _ ih hd
    rcases sent with _ | x
    · have hsame := h.sent d (S.nextId d.counter) d.queue [] hdraft
      rwa [List.map_nil, List.append_nil] at hsame
    · exact h.sent d _ _ [x] hdraft
  | @renewed us c _ keyId before after ih =>
    exact h.rekeyed _ _ _ _ (h.clock c c.now c.unixTime c.lastSeen c.now ih)

lemma resends (h : Invariant I) (ha : I a) (hr : Resends S a us b) : I b := by
  induction hr with
  | nil => exact ha
  | @cons a b us inner sent _ _ ih =>
    refine ih ?_
    rcases sent with _ | x
    · exact h.sent a (S.nextId a.counter) a.queue [] ha
    · exact h.sent a (S.nextId a.counter) a.queue [x] ha

lemma step (h : Invariant I) (addr : SocketAddr) (hw : I w.outward) (e : Event Conn) :
    I (Javs.step S addr w e).outward := by
  obtain ⟨us, hus⟩ := step_shows S addr w e
  have hclock (env : Env Conn) (lastSeen lastRekeyAt : ℕ) :
      I { w.outward.at env with lastSeen, lastRekeyAt } :=
    h.clock w.outward env.now env.unixTime lastSeen lastRekeyAt hw
  generalize (Javs.step S addr w e).outward = b at hus
  cases hus with
  | idle hc hr =>
    cases e with
    | shared tab => exact hw
    | _ env => exact hclock env w.sess.lastSeen w.sess.lastRekeyAt
  | @refused env => exact hclock env env.now w.sess.lastRekeyAt
  | @heard env ctrl _ _ _ _ _ hs =>
    exact h.speaks (h.noted _ ctrl (hclock env w.sess.lastSeen w.sess.lastRekeyAt)) hs
  | @opened env => exact hclock env env.now w.sess.lastRekeyAt
  | @sealed env _ keyId pid ct =>
    exact h.sent _ w.outward.counter w.outward.queue
      [Session.dataHeader w.sess.peerId keyId pid ++ ct]
      (hclock env w.sess.lastSeen w.sess.lastRekeyAt)
  | @requested env _ _ _ _ _ _ hs => exact h.speaks (hclock env w.sess.lastSeen env.now) hs
  | @resent env _ _ _ _ hr =>
    have hscan := h.sent _ w.outward.counter
      (w.sess.staleUnacked env.now controlBaseRto).1.unacked []
      (hclock env w.sess.lastSeen w.sess.lastRekeyAt)
    rw [List.map_nil, List.append_nil] at hscan
    exact h.resends hscan hr
  | @restarted env _ _ _ hs =>
    exact h.speaks (hclock env w.sess.lastSeen w.sess.lastRekeyAt) hs

/-- **The invariant rule** for the sessions of a server. -/
theorem session (h : Invariant I) (S : VpnServer Conn) (addr : SocketAddr) (o : Opening Conn)
    (ho : I (.opening o)) (es : List (Event Conn)) :
    I (run (Javs.step S addr) (started S o) es).outward := by
  obtain ⟨us, hus⟩ := started_speaks S o
  exact run_invariant (I := fun w : World Conn => I w.outward) (fun _ e hw => h.step addr hw e)
    (h.speaks ho hus)

end Outward.Invariant

end Javs
